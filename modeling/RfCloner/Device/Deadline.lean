/-
  When a learn is over (`rf_cloner.cpp`: `learn`, `loop`).

  The main loop gets to the component again and again, and calls `loop` while it is enabled: `learn`
  enables it, and `loop` disables itself where there is no learn to look after.  `loop` compares a
  clock of 32 bits with the deadline and with the time the capture became ready, which are both on
  that clock.  Here time is a number that never wraps, and the clock is what is left of it.

  `learn_deadline` is what the comparisons come to.  No learn fails for its time before the deadline.
  Past it the next `loop` ends the learn, unless a window has made the capture ready less than
  `settle` ago, so a learn whose receiver has fallen silent is always ended.
-/
import RfCloner.Device.Arrival

namespace RfCloner

open LearningCloner

/-! ## The clock -/

section Clock

variable {t u : Nat}

/-- The clock tells how long ago a moment was, if that was less than its period. -/
theorem toNat_since (hle : u ≤ t) (hlt : t - u < 2 ^ 32) :
    (UInt32.ofNat t - UInt32.ofNat u).toNat = t - u := by
  obtain ⟨d, rfl⟩ := Nat.exists_eq_add_of_le hle
  rw [ofNat_add_sub_ofNat, toNat_ofNat_small (by omega)]
  omega

/-- The sign of a difference tells whether a moment has come, within half a period of it. -/
theorem reached_iff (hbefore : u ≤ t + 2 ^ 31) (hafter : t < u + 2 ^ 31) :
    (UInt32.ofNat t - UInt32.ofNat u).toInt32 ≥ 0 ↔ u ≤ t := by
  have hdiff : (UInt32.ofNat t - UInt32.ofNat u).toNat
      = (2 ^ 32 - u % 2 ^ 32 + t % 2 ^ 32) % 2 ^ 32 := by
    rw [UInt32.toNat_sub, UInt32.toNat_ofNat', UInt32.toNat_ofNat']
  have hsign := BitVec.toInt_eq_toNat_cond (UInt32.ofNat t - UInt32.ofNat u).toBitVec
  rw [UInt32.toNat_toBitVec, hdiff] at hsign
  rw [ge_iff_le, Int32.le_iff_toInt_le]
  show 0 ≤ (UInt32.ofNat t - UInt32.ofNat u).toBitVec.toInt ↔ u ≤ t
  split at hsign <;> omega

end Clock

/-! ## The main loop -/

/-- The component as the main loop has it: `loop` is called while it is enabled. -/
structure Scheduled extends LearningCloner where
  looping : Bool := false

/-- What happens to the component at some time. -/
inductive Occasion where
  | learn (name : Bytes) (timeoutMs : UInt32)
  | cancel
  | onReceive (saves : Bool) (rawData : Frame) (nowUs : UInt32)
  | iterate (saves : Bool)
  | action (saves : Bool) (action : StoreAction)
  deriving DecidableEq

/-- The event, with what `millis` reads. -/
def Occasion.event (atMs : Nat) : Occasion → LearnEvent
  | .learn name timeoutMs => .learn name timeoutMs (UInt32.ofNat atMs)
  | .cancel => .cancel
  | .onReceive saves rawData nowUs => .onReceive saves rawData nowUs (UInt32.ofNat atMs)
  | .iterate saves => .loop saves (UInt32.ofNat atMs)
  | .action saves performed => .action saves performed

namespace Scheduled

variable (cfg : CaptureConfig)

/-- Whether `loop` is enabled after an occasion that leaves the component with some state. -/
def loopingAfter (x : Scheduled) (after : LearnState) : Occasion → Bool
  -- `enable_loop`, where `learn` arms
  | .learn _ _ => if after = .armed then true else x.looping
  -- `disable_loop`, where `loop` finds no learn
  | .iterate _ => if x.state ≠ .armed then false else x.looping
  | _ => x.looping

/-- One occasion. -/
def step (x : Scheduled) (atMs : Nat) (o : Occasion) : Scheduled × List Call :=
  match o, x.looping with
  | .iterate _, false => (x, [])
  | o, _ =>
    let out := x.toLearningCloner.step cfg (o.event atMs)
    (⟨out.1, x.loopingAfter out.1.state o⟩, out.2)

/-- Some occasions, each at its time. -/
def run (x : Scheduled) (trace : List (Nat × Occasion)) : Scheduled :=
  trace.foldl (fun x p => (x.step cfg p.1 p.2).1) x

variable {cfg} {x : Scheduled} {atMs : Nat} {o : Occasion}

/-- While `loop` is enabled, every occasion is the event that it is. -/
theorem step_of_looping (hlooping : x.looping = true) (o : Occasion) :
    x.step cfg atMs o =
      (⟨(x.toLearningCloner.step cfg (o.event atMs)).1,
        x.loopingAfter (x.toLearningCloner.step cfg (o.event atMs)).1.state o⟩,
        (x.toLearningCloner.step cfg (o.event atMs)).2) := by
  unfold step
  rw [hlooping]
  cases o <;> rfl

/-- No occasion disables `loop` while there is a learn to look after. -/
theorem loopingAfter_of_armed (hlooping : x.looping = true) (harmed : x.state = .armed)
    (after : LearnState) : x.loopingAfter after o = true := by
  cases o with
  | learn name timeoutMs =>
    show (if after = .armed then true else x.looping) = true
    rw [hlooping]
    split <;> rfl
  | iterate saves =>
    show (if x.state ≠ .armed then false else x.looping) = true
    rw [if_neg (not_not_intro harmed), hlooping]
  | cancel | onReceive | action => exact hlooping

/-! ## A learn -/

/-- When the learn that is armed is due: its deadline is on the clock, the time from which its capture
    has been ready as well, and the main loop looks after it. -/
structure Due (armedAt deadline heard : Nat) (x : Scheduled) : Prop where
  looping : x.looping = true
  deadline : x.deadlineMs = UInt32.ofNat deadline
  ready : x.capture.ready = true →
    ∃ since, armedAt ≤ since ∧ since ≤ heard ∧ x.capture.readySinceMs = UInt32.ofNat since

end Scheduled

namespace CaptureState

variable {cfg : CaptureConfig} {s : CaptureState}

/-- The capture has been ready since before, or since now. -/
def ReadySince (nowMs : UInt32) (s t : CaptureState) : Prop :=
  t.ready = true → t.readySinceMs = nowMs ∨ s.ready = true ∧ t.readySinceMs = s.readySinceMs

theorem ReadySince.settle {t : CaptureState} {nowMs : UInt32} (h : ReadySince nowMs s t) :
    ReadySince nowMs s (t.settle cfg nowMs) := by
  unfold CaptureState.settle
  split
  · exact fun _ => .inl rfl
  · exact h

theorem ReadySince.countPair {t : CaptureState} {nowMs : UInt32} (h : ReadySince nowMs s t)
    (first : Frame) (gap : UInt32) : ReadySince nowMs s (t.countPair cfg first gap) := by
  cases hdiffers : differs cfg t.candidate first with
  | true =>
    rw [countPair_of_differs gap hdiffers]
    exact fun hready => by cases hready
  | false =>
    rw [countPair_of_agrees gap hdiffers]
    exact h

theorem ReadySince.tally (nowMs : UInt32) (w : Window) : ReadySince nowMs w.found (tally cfg w) :=
  List.foldlRecOn _ _ (fun hready => .inr ⟨hready, rfl⟩) fun _ h pair _ => h.countPair pair.1 pair.2.2

theorem readySince_receive (rawData : Frame) (nowUs nowMs : UInt32) :
    ReadySince nowMs s (s.receive cfg rawData nowUs nowMs).1 := by
  cases hconsumed : (⟨s, stripTerminator rawData, nowUs⟩ : Window).consumed cfg with
  | true =>
    rw [receive_of_consumed hconsumed]
    exact (ReadySince.tally nowMs _).settle
  | false =>
    rw [receive_of_not_consumed hconsumed]
    unfold takeWindow
    split
    · cases hdiffers : differs cfg s.candidate (stripTerminator rawData) with
      | true =>
        rw [takeFrame_of_differs nowUs nowMs hdiffers]
        exact fun hready => by cases hready
      | false =>
        rw [takeFrame_of_agrees nowUs nowMs hdiffers]
        exact ReadySince.settle fun hready => .inr ⟨hready, rfl⟩
    · exact fun hready => .inr ⟨hready, rfl⟩

end CaptureState

/-! ## Until it is over -/

namespace Scheduled

variable {cfg : CaptureConfig} {x : Scheduled} {armedAt deadline heard atMs : Nat} {o : Occasion}

theorem deadlineMs_arm {c : LearningCloner} {name : Bytes} {timeoutMs nowMs : UInt32}
    (harmed : (c.arm cfg name timeoutMs nowMs).1.state = .armed) :
    (c.arm cfg name timeoutMs nowMs).1.deadlineMs
      = nowMs + (if timeoutMs > 0 then timeoutMs else cfg.learnTimeoutMs) := by
  unfold arm at harmed ⊢
  split at harmed
  · cases harmed
  · split at harmed
    · cases harmed
    · rename_i hname hroom
      rw [if_neg hname, if_neg hroom]

/-- The time a learn is given. -/
def timeout (cfg : CaptureConfig) (timeoutMs : UInt32) : Nat :=
  (if timeoutMs > 0 then timeoutMs else cfg.learnTimeoutMs).toNat

/-- A learn starts due at its deadline. -/
theorem due_of_learn {name : Bytes} {timeoutMs : UInt32}
    (harmed : (x.step cfg armedAt (.learn name timeoutMs)).1.state = .armed) :
    Due armedAt (armedAt + timeout cfg timeoutMs) heard
      (x.step cfg armedAt (.learn name timeoutMs)).1 := by
  have hstep : x.step cfg armedAt (.learn name timeoutMs) =
      (⟨(x.learn cfg name timeoutMs (UInt32.ofNat armedAt)).1,
        x.loopingAfter (x.learn cfg name timeoutMs (UInt32.ofNat armedAt)).1.state
          (.learn name timeoutMs)⟩, (x.learn cfg name timeoutMs (UInt32.ofNat armedAt)).2) := by
    unfold step
    cases x.looping <;> rfl
  rw [hstep] at harmed ⊢
  obtain ⟨c, hlearn⟩ : ∃ c : LearningCloner, (x.learn cfg name timeoutMs (UInt32.ofNat armedAt)).1
      = (c.arm cfg name timeoutMs (UInt32.ofNat armedAt)).1 := by
    unfold learn
    split
    · exact ⟨_, rfl⟩
    · exact ⟨_, rfl⟩
  have harmed : (x.learn cfg name timeoutMs (UInt32.ofNat armedAt)).1.state = .armed := harmed
  have harm := hlearn ▸ harmed
  have hcapture := congrArg LearningCloner.capture hlearn
  rw [capture_arm harm] at hcapture
  refine ⟨if_pos harmed, ?_, fun hready => ?_⟩
  · refine (congrArg LearningCloner.deadlineMs hlearn).trans ((deadlineMs_arm harm).trans ?_)
    rw [UInt32.ofNat_add, timeout, UInt32.ofNat_toNat]
  · have hready : (x.learn cfg name timeoutMs (UInt32.ofNat armedAt)).1.capture.ready = true := hready
    rw [hcapture] at hready
    cases hready

/-- **One occasion** that does not end the learn leaves it due as it was. -/
theorem Due.step (h : Due armedAt deadline heard x) (harmed : x.state = .armed)
    (hlearn : ∀ name timeoutMs, o ≠ .learn name timeoutMs) (hsince : armedAt ≤ atMs)
    (hheard : ∀ saves rawData nowUs, o = .onReceive saves rawData nowUs → atMs ≤ heard)
    (hstill : (x.step cfg atMs o).1.state = .armed) :
    Due armedAt deadline heard (x.step cfg atMs o).1 := by
  rw [step_of_looping h.looping] at hstill ⊢
  have hlooping := loopingAfter_of_armed (o := o) h.looping harmed
    (x.toLearningCloner.step cfg (o.event atMs)).1.state
  have hcase := step_cases cfg x.toLearningCloner (o.event atMs)
  have hstill : (x.toLearningCloner.step cfg (o.event atMs)).1.state = .armed := hstill
  generalize hevent : o.event atMs = event at hcase hstill hlooping ⊢
  generalize x.toLearningCloner.step cfg event = next at hcase hstill hlooping ⊢
  cases hcase with
  | rearmed name timeoutMs | armed name timeoutMs =>
    cases o with
    | learn name timeoutMs => exact absurd rfl (hlearn name timeoutMs)
    | cancel | onReceive | iterate | action => cases hevent
  | ignored hidle => exact absurd harmed hidle
  | failed => cases hstill
  | received saves rawData nowUs nowMs =>
    refine ⟨hlooping, h.deadline, fun hready => ?_⟩
    cases o with
    | onReceive saves rawData nowUs =>
      cases hevent
      rcases CaptureState.readySince_receive rawData nowUs (UInt32.ofNat atMs) hready with
        hnow | ⟨hbefore, hsame⟩
      · exact ⟨atMs, hsince, hheard _ _ _ rfl, hnow⟩
      · obtain ⟨since, hge, hle, hread⟩ := h.ready hbefore
        exact ⟨since, hge, hle, hsame.trans hread⟩
    | learn | cancel | iterate | action => cases hevent
  | committed saves => exact absurd hstill (state_commitCapture_ne saves _)
  | waited => exact ⟨hlooping, h.deadline, h.ready⟩
  | settled saves => exact absurd hstill (state_commitCapture_ne saves _)
  | acted => exact ⟨hlooping, h.deadline, h.ready⟩

/-- **One `loop`**: the learn is over from its deadline on, unless its capture is settling. -/
theorem Due.iterate (h : Due armedAt deadline heard x) (harmed : x.state = .armed) (saves : Bool)
    (hnow : armedAt ≤ atMs) (hle : armedAt ≤ deadline) (hlong : deadline < armedAt + 2 ^ 31) :
    (atMs < deadline → (x.step cfg atMs (.iterate saves)).1.state = .armed ∨
      ∃ command result, ⟨.armed, .put command result⟩ ∈ (x.step cfg atMs (.iterate saves)).2) ∧
    (deadline ≤ atMs → heard + cfg.settleMs.toNat ≤ atMs → atMs < deadline + 2 ^ 31 →
      (x.step cfg atMs (.iterate saves)).1.state ≠ .armed) := by
  rw [step_of_looping h.looping]
  show (_ → (x.loop cfg saves (UInt32.ofNat atMs)).1.state = .armed ∨
      ∃ command result, ⟨.armed, .put command result⟩ ∈ (x.loop cfg saves (UInt32.ofNat atMs)).2) ∧
    (_ → _ → _ → (x.loop cfg saves (UInt32.ofNat atMs)).1.state ≠ .armed)
  by_cases hsettled : x.capture.ready = true ∧
      UInt32.ofNat atMs - x.capture.readySinceMs ≥ cfg.settleMs
  · -- the capture is put
    have hloop : x.loop cfg saves (UInt32.ofNat atMs) = x.commitCapture cfg saves := by
      unfold loop
      rw [if_neg (not_not_intro harmed), if_pos hsettled]
    rw [hloop]
    obtain ⟨result, hput⟩ := exists_put_commitCapture cfg saves x.toLearningCloner
    exact ⟨fun _ => .inr ⟨_, result, harmed ▸ hput⟩, fun _ _ _ => state_commitCapture_ne saves _⟩
  · have hloop : x.loop cfg saves (UInt32.ofNat atMs) =
        if x.capture.ready = false ∧ (UInt32.ofNat atMs - x.deadlineMs).toInt32 ≥ 0 then
          x.fail (overdue x.capture)
        else (x.toLearningCloner, []) := by
      unfold loop
      rw [if_neg (not_not_intro harmed), if_neg hsettled]
    rw [hloop, h.deadline]
    constructor
    · intro hearly
      have hcome := mt (reached_iff (t := atMs) (u := deadline) (by omega) (by omega)).mp (by omega)
      rw [if_neg fun hdue => hcome hdue.2]
      exact .inl harmed
    · intro hdue hquiet hsoon
      have hcome := (reached_iff (t := atMs) (u := deadline) (by omega) hsoon).mpr hdue
      cases hready : x.capture.ready with
      | false =>
        rw [if_pos ⟨rfl, hcome⟩]
        exact fun hfailed => by cases hfailed
      | true =>
        -- it would have settled by now
        obtain ⟨since, hge, hheard, hsince⟩ := h.ready hready
        refine absurd ⟨hready, ?_⟩ hsettled
        rw [hsince, ge_iff_le, UInt32.le_iff_toNat_le, toNat_since (by omega) (by omega)]
        omega

/-- Only a `learn` arms. -/
theorem armed_of_step (hlearn : ∀ name timeoutMs, o ≠ .learn name timeoutMs)
    (hstill : (x.step cfg atMs o).1.state = .armed) : x.state = .armed := by
  by_contra hidle
  have hout : (x.step cfg atMs o).1.state = x.state ∨
      (x.step cfg atMs o).1.state = (x.toLearningCloner.step cfg (o.event atMs)).1.state := by
    unfold step
    cases x.looping <;> cases o <;> simp
  have hnext : (x.toLearningCloner.step cfg (o.event atMs)).1.state = x.state := by
    have hcase := step_cases cfg x.toLearningCloner (o.event atMs)
    generalize hevent : o.event atMs = event at hcase ⊢
    generalize x.toLearningCloner.step cfg event = next at hcase ⊢
    cases hcase with
    | rearmed name timeoutMs | armed name timeoutMs =>
      cases o with
      | learn name timeoutMs => exact absurd rfl (hlearn name timeoutMs)
      | cancel | onReceive | iterate | action => cases hevent
    | ignored | acted => rfl
    | failed _ harmed | received _ _ _ _ harmed | committed _ _ _ _ harmed | waited _ _ harmed
    | settled _ _ harmed => exact absurd harmed hidle
  rcases hout with hsame | hstep
  · exact hidle (hsame ▸ hstill)
  · exact hidle ((hstep.trans hnext) ▸ hstill)

theorem armed_of_run {trace : List (Nat × Occasion)}
    (hlearn : ∀ p ∈ trace, ∀ name timeoutMs, p.2 ≠ .learn name timeoutMs) :
    ∀ {x : Scheduled}, (x.run cfg trace).state = .armed → x.state = .armed := by
  induction trace with
  | nil => exact fun harmed => harmed
  | cons p trace ih =>
    rw [List.forall_mem_cons] at hlearn
    exact fun hstill => armed_of_step hlearn.1 (ih hlearn.2 hstill)

/-- **As long as the learn is on**, it is due as it was. -/
theorem Due.run {trace : List (Nat × Occasion)}
    (hlearn : ∀ p ∈ trace, ∀ name timeoutMs, p.2 ≠ .learn name timeoutMs)
    (hsince : ∀ p ∈ trace, armedAt ≤ p.1)
    (hheard : ∀ p ∈ trace, ∀ saves rawData nowUs, p.2 = .onReceive saves rawData nowUs → p.1 ≤ heard) :
    ∀ {x : Scheduled}, Due armedAt deadline heard x → (x.run cfg trace).state = .armed →
      Due armedAt deadline heard (x.run cfg trace) := by
  induction trace with
  | nil => exact fun h _ => h
  | cons p trace ih =>
    intro x h hstill
    rw [List.forall_mem_cons] at hlearn hsince hheard
    have hnext : (x.step cfg p.1 p.2).1.state = .armed := armed_of_run hlearn.2 hstill
    have harmed : x.state = .armed := armed_of_step hlearn.1 hnext
    exact ih hlearn.2 hsince.2 hheard.2
      (h.step harmed hlearn.1 hsince.1 hheard.1 hnext) hstill

/-! ## The deadline -/

/-- **A learn is over by its deadline, and not before.**  Take any learn of less than half the period of
    the clock that is armed at some moment, and anything that happens while it is on, windows until
    `heard` among it.  A `loop` before the deadline leaves the learn on or puts its command.  From the
    deadline on, for half the period of the clock, a `loop` ends it, if the last window is `settle`
    ago. -/
theorem learn_deadline {cfg : CaptureConfig} {x : Scheduled} {armedAt heard : Nat} {name : Bytes}
    {timeoutMs : UInt32} {trace : List (Nat × Occasion)}
    (hlong : timeout cfg timeoutMs < 2 ^ 31)
    (hlearn : ∀ p ∈ trace, ∀ name timeoutMs, p.2 ≠ .learn name timeoutMs)
    (hsince : ∀ p ∈ trace, armedAt ≤ p.1)
    (hheard : ∀ p ∈ trace, ∀ saves rawData nowUs, p.2 = .onReceive saves rawData nowUs → p.1 ≤ heard)
    (harmed : (((x.step cfg armedAt (.learn name timeoutMs)).1.run cfg trace).state = .armed))
    (saves : Bool) {nowMs : Nat} (hnow : armedAt ≤ nowMs) :
    (nowMs < armedAt + timeout cfg timeoutMs →
      ((((x.step cfg armedAt (.learn name timeoutMs)).1.run cfg trace).step cfg nowMs
          (.iterate saves)).1.state = .armed ∨
        ∃ command result, ⟨.armed, .put command result⟩ ∈
          (((x.step cfg armedAt (.learn name timeoutMs)).1.run cfg trace).step cfg nowMs
            (.iterate saves)).2)) ∧
    (armedAt + timeout cfg timeoutMs ≤ nowMs → heard + cfg.settleMs.toNat ≤ nowMs →
      nowMs < armedAt + timeout cfg timeoutMs + 2 ^ 31 →
      (((x.step cfg armedAt (.learn name timeoutMs)).1.run cfg trace).step cfg nowMs
        (.iterate saves)).1.state ≠ .armed) := by
  have hstart : Due armedAt (armedAt + timeout cfg timeoutMs) heard
      (x.step cfg armedAt (.learn name timeoutMs)).1 := due_of_learn (armed_of_run hlearn harmed)
  exact (hstart.run hlearn hsince hheard harmed).iterate harmed saves hnow (by omega) (by omega)

/-- A learn of the default 15 seconds, armed one second before the clock wraps. -/
def armedBeforeWrap : Scheduled :=
  ((Scheduled.mk (boot Observed.emptyStore) false).step {} (2 ^ 32 - 1000)
    (.learn (ascii "fan") 0)).1

/-- One window of a button comes, and none after it. -/
def once : List (Nat × Occasion) := [(2 ^ 32 - 500, .onReceive true heldButton 0)]

theorem learn_deadline_across_wrap :
    ((((armedBeforeWrap.run {} once).step {} (2 ^ 32 + 13999) (.iterate true)).1.state = .armed ∨
      ∃ command result, ⟨.armed, .put command result⟩ ∈
        ((armedBeforeWrap.run {} once).step {} (2 ^ 32 + 13999) (.iterate true)).2)) ∧
    ((armedBeforeWrap.run {} once).step {} (2 ^ 32 + 14000) (.iterate true)).1.state ≠ .armed := by
  have hdeadline (nowMs : Nat) (hnow : 2 ^ 32 - 1000 ≤ nowMs) :=
    @learn_deadline {} ⟨boot Observed.emptyStore, false⟩ (2 ^ 32 - 1000) (2 ^ 32 - 500)
      (ascii "fan") 0 once (by decide)
      (fun p hp name timeoutMs heq => by
        rw [List.mem_singleton.mp hp] at heq
        cases heq)
      (by decide)
      (fun p hp saves rawData nowUs _ => by rw [List.mem_singleton.mp hp])
      (by decide) true nowMs hnow
  have htimeout : 2 ^ 32 - 1000 + timeout {} 0 = 2 ^ 32 + 14000 := by decide
  rw [htimeout] at hdeadline
  exact ⟨(hdeadline _ (by decide)).1 (by decide),
    (hdeadline _ (by decide)).2 (by decide) (by decide) (by decide)⟩

end Scheduled

end RfCloner
