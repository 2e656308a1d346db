/-
  Learning again from `on_learn_failed`.

  Callbacks run synchronously, so an automation on `on_learn_failed` that calls `learn` is inside
  the function that has failed.  A `Reaction` is what the automation does at one such call: the
  learns it makes, and what it does at the failures these report in turn.  The functions of the
  component come again with their handlers, at the place where they call them; with a handler that
  does nothing they are the functions of `Learn` (`stepWith_done`).

  `track` follows the learn in progress through the callbacks.  `fail_` calls its handler last and
  keeps to it, whatever the handler arms.  The refusals of `learn` and the failed put of
  `commit_capture_` set `IDLE` after their handler, and a `learn` that re-arms goes on after its own.
-/
import RfCloner.Device.Lifecycle

namespace RfCloner

/-! ## What is called -/

/-- Whether a failure is the refusal of a call of `learn`, which has started nothing. -/
def isRefusal (reason : Bytes) : Bool :=
  reason == ascii "store_full" || (ascii "name_rejected:").isPrefixOf reason

/-- Whether a callback ends the learn in progress. -/
def Effect.ends : Effect → Bool
  | .learnSuccess _ => true
  | .learnFailed reason => !isRefusal reason
  | _ => false

@[simp] theorem ends_failure (failure : LearnFailure) :
    (Effect.learnFailed failure.text).ends = true := by
  cases failure <;> decide

@[simp] theorem ends_storeError (reason : Bytes) :
    (Effect.learnFailed (ascii "store_error:" ++ reason)).ends = true := by
  have hfull : (ascii "store_error:" ++ reason == ascii "store_full") = false := by
    refine beq_eq_false_iff_ne.mpr fun h => ?_
    have hhead := congrArg (List.take 7) h
    rw [List.take_append_of_le_length (by decide)] at hhead
    exact absurd hhead (by decide)
  have hname : (ascii "name_rejected:").isPrefixOf (ascii "store_error:" ++ reason) = false := by
    show ((110 : UInt8) == 115 && _) = false
    rfl
  simp only [Effect.ends, isRefusal, hfull, hname, Bool.or_self, Bool.not_false]

@[simp] theorem ends_storeFull : (Effect.learnFailed (ascii "store_full")).ends = false := by decide

@[simp] theorem ends_nameRejected (reason : Bytes) :
    (Effect.learnFailed (ascii "name_rejected:" ++ reason)).ends = false := by
  have hname : (ascii "name_rejected:").isPrefixOf (ascii "name_rejected:" ++ reason) = true :=
    List.isPrefixOf_iff_prefix.mpr (List.prefix_append _ _)
  simp only [Effect.ends, isRefusal, hname, Bool.or_true, Bool.not_true]

namespace LearningCloner

/-! ## The component with its handlers -/

section Handlers

variable (cfg : CaptureConfig)

/-- What `learn_failed_callback_` runs.  It may call the component. -/
abbrev Handler := LearningCloner → LearningCloner × List Call

/-- `learn_failed_callback_.call`, until its handler has returned. -/
def callFailed (reason : Bytes) (handler : Handler) (c : LearningCloner) :
    LearningCloner × List Call :=
  let handled := handler c
  (handled.1, ⟨c.state, .learnFailed reason⟩ :: handled.2)

/-- `fail_`. -/
def failWith (failure : LearnFailure) (handler : Handler) (c : LearningCloner) :
    LearningCloner × List Call :=
  callFailed failure.text handler
    { c with capture := c.capture.drop, lastResult := failure.text, state := .failed }

/-- The two refusals of `learn`. -/
def refuseWith (name reason : Bytes) (handler : Handler) (c : LearningCloner) :
    LearningCloner × List Call :=
  let handled := callFailed reason handler
    { c with pendingName := name, lastResult := reason, state := .failed }
  ({ handled.1 with state := .idle }, handled.2)

/-- `learn` from the check of the name on. -/
def armWith (name : Bytes) (timeoutMs nowMs : UInt32) (onRefused : Handler) (c : LearningCloner) :
    LearningCloner × List Call :=
  if validateName name ≠ .ok then
    c.refuseWith name (ascii "name_rejected:" ++ (validateName name).text) onRefused
  else if c.store.has name = false ∧ c.store.count ≥ c.store.config.maxCommands.toNat then
    c.refuseWith name (ascii "store_full") onRefused
  else c.arm cfg name timeoutMs nowMs

/-- `learn`, with what runs at the cancelled learn and what runs at the refusal of this one. -/
def learnWith (name : Bytes) (timeoutMs nowMs : UInt32) (onCancelled onRefused : Handler)
    (c : LearningCloner) : LearningCloner × List Call :=
  if c.state = .armed then
    let cancelled := c.failWith .cancelled onCancelled
    let armed := cancelled.1.armWith cfg name timeoutMs nowMs onRefused
    (armed.1, cancelled.2 ++ armed.2)
  else c.armWith cfg name timeoutMs nowMs onRefused

/-- `cancel`. -/
def cancelWith (handler : Handler) (c : LearningCloner) : LearningCloner × List Call :=
  if c.state ≠ .armed then (c, []) else c.failWith .cancelled handler

/-- `commit_capture_`. -/
def commitCaptureWith (saves : Bool) (handler : Handler) (c : LearningCloner) :
    LearningCloner × List Call :=
  match (Op.put (c.captured cfg)).attempt saves c.store with
  | (.ok, _) => c.commitCapture cfg saves
  | (result, store) =>
    let reason := ascii "store_error:" ++ result.text
    let handled := callFailed reason handler
      { c with store := store, lastResult := reason, state := .failed }
    ({ handled.1 with state := .idle }, ⟨c.state, .put (c.captured cfg) result⟩ :: handled.2)

/-- `on_receive`. -/
def onReceiveWith (saves : Bool) (rawData : Frame) (nowUs nowMs : UInt32) (handler : Handler)
    (c : LearningCloner) : LearningCloner × List Call :=
  if c.state ≠ .armed then (c, [])
  else
    match c.capture.receive cfg rawData nowUs nowMs with
    | (capture, false) => ({ c with capture := capture }, [])
    | (capture, true) => { c with capture := capture }.commitCaptureWith cfg saves handler

/-- `loop`. -/
def loopWith (saves : Bool) (nowMs : UInt32) (handler : Handler) (c : LearningCloner) :
    LearningCloner × List Call :=
  if c.state ≠ .armed then (c, [])
  else if c.capture.ready = true ∧ nowMs - c.capture.readySinceMs ≥ cfg.settleMs then
    c.commitCaptureWith cfg saves handler
  else if c.capture.ready = false ∧ (nowMs - c.deadlineMs).toInt32 ≥ 0 then
    c.failWith (overdue c.capture) handler
  else (c, [])

end Handlers

end LearningCloner

/-- What the automation does at one call of `on_learn_failed`: the learns it calls, in order, each
    with what it does when that learn reports the learn it cancels, or its own refusal. -/
inductive Reaction where
  | done
  | learn (name : Bytes) (timeoutMs nowMs : UInt32) (onCancelled onRefused next : Reaction)
  deriving DecidableEq

namespace Reaction

/-- The reaction as a handler. -/
def run (cfg : CaptureConfig) : Reaction → LearningCloner.Handler
  | .done, c => (c, [])
  | .learn name timeoutMs nowMs onCancelled onRefused next, c =>
    let called := c.learnWith cfg name timeoutMs nowMs (onCancelled.run cfg) (onRefused.run cfg)
    let rest := next.run cfg called.1
    (rest.1, called.2 ++ rest.2)

/-- The names it learns. -/
def names : Reaction → List Bytes
  | .done => []
  | .learn name _ _ onCancelled onRefused next =>
    name :: (onCancelled.names ++ onRefused.names ++ next.names)

/-- The name it learns last. -/
def left : Reaction → Option Bytes
  | .done => none
  | .learn name _ _ _ _ next => next.left.or (some name)

/-- Whether it keeps to what it arms: where it cancels a learn, it arms nothing else at the failure
    that this reports. -/
def Keeps : Reaction → Bool → Prop
  | .done, _ => True
  | .learn name _ _ onCancelled _ next, armed =>
    (armed = true → onCancelled.Keeps false ∧ ∀ other ∈ onCancelled.left, other = name)
      ∧ next.Keeps true

end Reaction

/-- An event, with what the automation does at the failures it reports: at the end of the learn in
    progress, and at the refusal of a call of `learn`. -/
structure HandledEvent where
  event : LearnEvent
  onFailed : Reaction := .done
  onRefused : Reaction := .done
  deriving DecidableEq

namespace LearningCloner

variable (cfg : CaptureConfig)

/-- One event, with the automation. -/
def stepWith (c : LearningCloner) (step : HandledEvent) : LearningCloner × List Call :=
  match step.event with
  | .learn name timeoutMs nowMs =>
    c.learnWith cfg name timeoutMs nowMs (step.onFailed.run cfg) (step.onRefused.run cfg)
  | .cancel => c.cancelWith (step.onFailed.run cfg)
  | .onReceive saves rawData nowUs nowMs =>
    c.onReceiveWith cfg saves rawData nowUs nowMs (step.onFailed.run cfg)
  | .loop saves nowMs => c.loopWith cfg saves nowMs (step.onFailed.run cfg)
  | .action saves action => ({ c with toCloner := action.perform saves c.toCloner }, [])

/-- The component after a run of events, and what the run calls. -/
def runWith : LearningCloner → List HandledEvent → LearningCloner × List Call
  | c, [] => (c, [])
  | c, step :: steps =>
    let stepped := c.stepWith cfg step
    let rest := runWith stepped.1 steps
    (rest.1, stepped.2 ++ rest.2)

/-! ### Without an automation -/

section Done

variable {cfg} {c : LearningCloner}

theorem armWith_done (name : Bytes) (timeoutMs nowMs : UInt32) :
    c.armWith cfg name timeoutMs nowMs (Reaction.done.run cfg) = c.arm cfg name timeoutMs nowMs := by
  unfold armWith arm
  split
  · rfl
  · split <;> rfl

theorem commitCaptureWith_done (saves : Bool) :
    c.commitCaptureWith cfg saves (Reaction.done.run cfg) = c.commitCapture cfg saves := by
  unfold commitCaptureWith
  split
  · rfl
  · rename_i result store hne hput
    unfold commitCapture
    rw [hput]
    cases result <;> first | rfl | exact absurd rfl hne

/-- **An automation that does nothing leaves the component as it is.** -/
theorem stepWith_done (c : LearningCloner) (event : LearnEvent) :
    c.stepWith cfg { event := event } = c.step cfg event := by
  cases event with
  | learn name timeoutMs nowMs =>
    show c.learnWith cfg name timeoutMs nowMs _ _ = c.learn cfg name timeoutMs nowMs
    unfold learnWith learn
    split
    · dsimp only
      rw [armWith_done]
      rfl
    · exact armWith_done name timeoutMs nowMs
  | cancel => rfl
  | onReceive saves rawData nowUs nowMs =>
    show c.onReceiveWith cfg saves rawData nowUs nowMs _ = c.onReceive cfg saves rawData nowUs nowMs
    unfold onReceiveWith onReceive
    split
    · rfl
    · rcases c.capture.receive cfg rawData nowUs nowMs with ⟨capture, commits⟩
      cases commits with
      | false => rfl
      | true => exact commitCaptureWith_done saves
  | loop saves nowMs =>
    show c.loopWith cfg saves nowMs _ = c.loop cfg saves nowMs
    unfold loopWith loop
    split
    · rfl
    · split
      · exact commitCaptureWith_done saves
      · rfl
  | action saves action => rfl

end Done

/-! ## The learn in progress -/

/-- The learn in progress after some calls, from the one before them.  None of them when a learn is
    started over one of another name. -/
def track : Option Bytes → List Call → Option (Option Bytes)
  | opened, [] => some opened
  | opened, call :: rest =>
    match call.effect with
    | .learnStarted name => if ∀ other ∈ opened, other = name then track (some name) rest else none
    | effect => track (if effect.ends then none else opened) rest

/-- A learn of that name has been started, and the calls that come after it report its end before
    another learn is started, or leave the component `ARMED` for it. -/
def Follows (c : LearningCloner) (name : Bytes) : List Call → Prop
  | [] => c.learning = some name
  | call :: rest =>
    match call.effect with
    | .learnStarted other => other = name ∧ c.Follows name rest
    | effect => effect.ends = true ∨ c.Follows name rest

/-- No learn that the calls start is lost. -/
def Reported (c : LearningCloner) : List Call → Prop
  | [] => True
  | call :: rest =>
    (∀ name, call.effect = .learnStarted name → c.Follows name rest) ∧ c.Reported rest

instance decidableFollows (c : LearningCloner) (name : Bytes) :
    (calls : List Call) → Decidable (c.Follows name calls)
  | [] => inferInstanceAs (Decidable (c.learning = some name))
  | ⟨_, .learnStarted other⟩ :: rest =>
    have := decidableFollows c name rest
    inferInstanceAs (Decidable (other = name ∧ c.Follows name rest))
  | ⟨_, .put command result⟩ :: rest =>
    have := decidableFollows c name rest
    inferInstanceAs (Decidable ((Effect.put command result).ends = true ∨ c.Follows name rest))
  | ⟨_, .learnSuccess other⟩ :: rest =>
    have := decidableFollows c name rest
    inferInstanceAs (Decidable ((Effect.learnSuccess other).ends = true ∨ c.Follows name rest))
  | ⟨_, .learnFailed reason⟩ :: rest =>
    have := decidableFollows c name rest
    inferInstanceAs (Decidable ((Effect.learnFailed reason).ends = true ∨ c.Follows name rest))

/-- What a call asks of those that come after it. -/
theorem reported_cons {c : LearningCloner} {call : Call} {rest : List Call} :
    c.Reported (call :: rest) ↔
      (match call.effect with
        | .learnStarted name => c.Follows name rest
        | _ => True) ∧ c.Reported rest := by
  show (∀ name, call.effect = .learnStarted name → c.Follows name rest) ∧ c.Reported rest ↔ _
  split
  · rename_i name heffect
    simp [heffect]
  · rename_i hnot
    exact and_congr_left fun _ => iff_true_intro fun name h => absurd h (hnot name)

instance decidableReported (c : LearningCloner) : (calls : List Call) → Decidable (c.Reported calls)
  | [] => .isTrue trivial
  | call :: rest =>
    have := decidableReported c rest
    have : Decidable (match call.effect with
        | .learnStarted name => c.Follows name rest
        | _ => True) :=
      match call.effect with
      | .learnStarted name => decidableFollows c name rest
      | .put _ _ => .isTrue trivial
      | .learnSuccess _ => .isTrue trivial
      | .learnFailed _ => .isTrue trivial
    decidable_of_iff' _ reported_cons

/-- The calls are followed to a learn that the component is still armed for, or to none. -/
def Answered (c : LearningCloner) (opened : Option Bytes) (calls : List Call) : Prop :=
  ∃ last, track opened calls = some last ∧ (last = none ∨ c.learning = last)

theorem track_append (calls rest : List Call) : ∀ opened : Option Bytes,
    track opened (calls ++ rest) = (track opened calls).bind (track · rest) := by
  induction calls with
  | nil => exact fun opened => rfl
  | cons call calls ih =>
    intro opened
    simp only [List.cons_append, track]
    split
    · split
      · exact ih _
      · rfl
    · exact ih _

/-- What nothing is left of, nothing is left of when it starts from nothing. -/
theorem track_none_of_track {calls : List Call} : ∀ {opened : Option Bytes},
    track opened calls = some none → track none calls = some none := by
  induction calls with
  | nil => exact fun _ => rfl
  | cons call calls ih =>
    intro opened h
    unfold track at h ⊢
    split at h
    · rename_i name heffect
      split at h
      · simpa using h
      · cases h
    · split at h
      · rename_i hends
        simpa [hends] using h
      · rename_i hends
        simpa [hends] using ih h

/-- **Following the learn in progress is following every learn.** -/
theorem answered_iff (c : LearningCloner) (calls : List Call) : ∀ opened : Option Bytes,
    c.Answered opened calls ↔ (∀ name ∈ opened, c.Follows name calls) ∧ c.Reported calls := by
  induction calls with
  | nil =>
    intro opened
    cases opened with
    | none => exact ⟨fun _ => ⟨nofun, trivial⟩, fun _ => ⟨none, rfl, .inl rfl⟩⟩
    | some name =>
      constructor
      · rintro ⟨last, hlast, hlearning⟩
        obtain rfl := Option.some.inj hlast
        exact ⟨fun other hother => (hlearning.resolve_left nofun).trans hother, trivial⟩
      · rintro ⟨hfollows, -⟩
        exact ⟨some name, rfl, .inr (hfollows name rfl)⟩
  | cons call calls ih =>
    intro opened
    unfold Answered track Follows Reported
    split
    · rename_i started heffect
      simp only [heffect, Effect.learnStarted.injEq, forall_eq']
      have hnext := ih (some started)
      simp only [Option.mem_some_iff, forall_eq'] at hnext
      rw [← hnext]
      split
      · rename_i hsame
        refine ⟨fun h => ⟨fun name hname => ?_, h⟩, fun h => h.2⟩
        obtain rfl := hsame name hname
        exact ⟨rfl, (hnext.mp h).1⟩
      · rename_i hother
        refine ⟨fun ⟨_, h, _⟩ => (nomatch h), fun h => ?_⟩
        exact absurd (fun other hmem => ((h.1 other hmem).1).symm) hother
    · rename_i effect hnot
      have hstarted : (∀ name, call.effect = .learnStarted name → c.Follows name calls) ↔ True :=
        iff_true_intro fun name h => absurd h (hnot name)
      rw [hstarted, true_and]
      refine (ih _).trans (and_congr_left fun _ => ?_)
      split
      · rename_i hends
        exact ⟨fun _ _ _ => .inl hends, fun _ => nofun⟩
      · rename_i hends
        exact forall₂_congr fun name _ => (or_iff_right hends).symm

/-! ## One reaction -/

section Reactions

variable {cfg} {c : LearningCloner}

theorem refuses_congr {c d : LearningCloner} (h : d.store = c.store) (name : Bytes) :
    d.Refuses name ↔ c.Refuses name := by
  unfold Refuses
  rw [h]

theorem left_eq_none {r : Reaction} : r.left = none ↔ r = .done := by
  cases r with
  | done => exact ⟨fun _ => rfl, fun _ => rfl⟩
  | learn name timeoutMs nowMs onCancelled onRefused next =>
    simp only [Reaction.left, Option.or_eq_none_iff, reduceCtorEq, and_false]

variable (cfg) in
theorem armWith_of_not_refuses {name : Bytes} (h : ¬ c.Refuses name) (timeoutMs nowMs : UInt32)
    (onRefused : Handler) :
    (c.armWith cfg name timeoutMs nowMs onRefused).1.learning = some name ∧
      (c.armWith cfg name timeoutMs nowMs onRefused).1.store = c.store ∧
      (c.armWith cfg name timeoutMs nowMs onRefused).2 = [⟨.armed, .learnStarted name⟩] := by
  obtain ⟨hname, hroom⟩ := not_or.mp h
  unfold armWith arm
  rw [if_neg hname, if_neg hroom, if_neg hname, if_neg hroom]
  exact ⟨rfl, rfl, rfl⟩

theorem track_started (opened : Option Bytes) (name : Bytes) :
    track opened [⟨.armed, .learnStarted name⟩]
      = if ∀ other ∈ opened, other = name then some (some name) else none := rfl

theorem track_failure (opened : Option Bytes) (state : LearnState) (failure : LearnFailure)
    (calls : List Call) :
    track opened (⟨state, .learnFailed failure.text⟩ :: calls) = track none calls := by
  show track (if (Effect.learnFailed failure.text).ends then none else opened) calls = _
  rw [ends_failure, if_pos rfl]

/-- What a reaction comes to, when no learn of it is refused: it leaves its last learn armed, and
    what it calls is followed to there exactly when it keeps to what it arms. -/
structure Ran (r : Reaction) (c : LearningCloner) (out : LearningCloner × List Call) : Prop where
  store : out.1.store = c.store
  learning : out.1.learning = r.left.or c.learning
  kept : r.Keeps c.learning.isSome → track c.learning out.2 = some out.1.learning
  lost : ¬ r.Keeps c.learning.isSome → track c.learning out.2 = none

/-- What a call of `learn` comes to, when it is not refused. -/
structure Learned (name : Bytes) (onCancelled : Reaction) (c : LearningCloner)
    (out : LearningCloner × List Call) : Prop where
  store : out.1.store = c.store
  learning : out.1.learning = some name
  kept : (c.learning.isSome = true →
      onCancelled.Keeps false ∧ ∀ other ∈ onCancelled.left, other = name) →
    track c.learning out.2 = some (some name)
  lost : ¬ (c.learning.isSome = true →
      onCancelled.Keeps false ∧ ∀ other ∈ onCancelled.left, other = name) →
    track c.learning out.2 = none

/-- What is called from `FAILED` is followed from nothing. -/
theorem Ran.from_none {r : Reaction} {out : LearningCloner × List Call} (h : Ran r c out)
    (hidle : c.learning = none) :
    out.1.learning = r.left ∧ (r.Keeps false → track none out.2 = some r.left) ∧
      (¬ r.Keeps false → track none out.2 = none) := by
  have hleft := h.learning
  have hkept := h.kept
  have hlost := h.lost
  rw [hidle] at hleft hkept hlost
  rw [Option.or_none] at hleft
  rw [hleft] at hkept
  exact ⟨hleft, hkept, hlost⟩

theorem learned {name : Bytes} {onCancelled : Reaction} (hname : ¬ c.Refuses name)
    (hran : Ran onCancelled (c.fail .cancelled).1 (onCancelled.run cfg (c.fail .cancelled).1))
    (timeoutMs nowMs : UInt32) (onRefused : Handler) :
    Learned name onCancelled c
      (c.learnWith cfg name timeoutMs nowMs (onCancelled.run cfg) onRefused) := by
  unfold learnWith
  split
  · rename_i harmed
    have hsome : c.learning.isSome = true := by rw [learning_of_armed harmed]; rfl
    obtain ⟨-, hkept, hlost⟩ := hran.from_none rfl
    have hstore : (c.failWith .cancelled (onCancelled.run cfg)).1.store = c.store := hran.store
    obtain ⟨hlearning, hst, hcalls⟩ := armWith_of_not_refuses cfg
      ((refuses_congr hstore name).not.mpr hname) timeoutMs nowMs onRefused
    have htrack : ∀ calls, track c.learning
        ((c.failWith .cancelled (onCancelled.run cfg)).2 ++ calls)
          = (track none (onCancelled.run cfg (c.fail .cancelled).1).2).bind (track · calls) := by
      intro calls
      rw [← track_append]
      exact track_failure _ _ _ _
    refine ⟨hst.trans hstore, hlearning, fun hkeeps => ?_, fun hloses => ?_⟩
    · obtain ⟨hkeeps, hsame⟩ := hkeeps hsome
      show track c.learning ((c.failWith .cancelled (onCancelled.run cfg)).2 ++ _) = _
      rw [hcalls, htrack, hkept hkeeps]
      exact (track_started _ _).trans (if_pos hsame)
    · show track c.learning ((c.failWith .cancelled (onCancelled.run cfg)).2 ++ _) = _
      rw [hcalls, htrack]
      by_cases hkeeps : onCancelled.Keeps false
      · rw [hkept hkeeps]
        exact (track_started _ _).trans (if_neg fun hsame => hloses fun _ => ⟨hkeeps, hsame⟩)
      · rw [hlost hkeeps]
        rfl
  · rename_i hidle
    have hnone := learning_of_not_armed hidle
    obtain ⟨hlearning, hst, hcalls⟩ :=
      armWith_of_not_refuses cfg hname timeoutMs nowMs onRefused
    refine ⟨hst, hlearning, fun _ => ?_, fun hloses => absurd (fun h => ?_) hloses⟩
    · rw [hcalls, hnone]
      rfl
    · rw [hnone] at h
      cases h

variable (cfg) in
theorem ran (r : Reaction) : ∀ c : LearningCloner, (∀ name ∈ r.names, ¬ c.Refuses name) →
    Ran r c (r.run cfg c) := by
  induction r with
  | done => exact fun c _ => ⟨rfl, rfl, fun _ => rfl, fun h => absurd trivial h⟩
  | learn name timeoutMs nowMs onCancelled onRefused next ihCancelled _ ihNext =>
    intro c hnames
    simp only [Reaction.names, List.mem_cons, List.mem_append, or_imp, forall_and,
      forall_eq] at hnames
    obtain ⟨hname, ⟨hcancelled, -⟩, hnext⟩ := hnames
    have hlearned := learned hname (ihCancelled _ hcancelled) timeoutMs nowMs (onRefused.run cfg)
    have hran := ihNext _ fun other hmem =>
      (refuses_congr hlearned.store other).not.mpr (hnext other hmem)
    have hlearning := hran.learning
    have hkept := hran.kept
    have hlost := hran.lost
    rw [hlearned.learning] at hlearning hkept hlost
    refine ⟨hran.store.trans hlearned.store, ?_, fun hkeeps => ?_, fun hloses => ?_⟩
    · refine hlearning.trans ?_
      rw [Reaction.left, Option.or_assoc]
      rfl
    · refine (track_append _ _ _).trans ?_
      rw [hlearned.kept hkeeps.1]
      exact hkept hkeeps.2
    · refine (track_append _ _ _).trans ?_
      by_cases hfirst : c.learning.isSome = true →
          onCancelled.Keeps false ∧ ∀ other ∈ onCancelled.left, other = name
      · rw [hlearned.kept hfirst]
        exact hlost fun hrest => hloses ⟨hfirst, hrest⟩
      · rw [hlearned.lost hfirst]
        rfl

/-! ## The paths of an event -/

/-- A condition decides whether the learns of an outcome are followed to the one it is armed for. -/
structure Decides (P : Prop) (opened : Option Bytes) (out : LearningCloner × List Call) : Prop where
  kept : P → track opened out.2 = some out.1.learning
  lost : out.1.Answered opened out.2 → P

theorem Decides.congr {P Q : Prop} {opened : Option Bytes} {out : LearningCloner × List Call}
    (h : Decides P opened out) (hiff : Q ↔ P) : Decides Q opened out :=
  ⟨fun hq => h.kept (hiff.mp hq), fun hanswered => hiff.mpr (h.lost hanswered)⟩

theorem answered_of_track {opened : Option Bytes} {calls : List Call}
    (h : track opened calls = some c.learning) : c.Answered opened calls :=
  ⟨c.learning, h, .inr rfl⟩

theorem track_of_answered {opened : Option Bytes} {calls : List Call} (hidle : c.learning = none)
    (h : c.Answered opened calls) : track opened calls = some none := by
  obtain ⟨last, hlast, hlearning⟩ := h
  rw [hidle] at hlearning
  rw [hlast, hlearning.elim id Eq.symm]

theorem not_answered_of_track {opened : Option Bytes} {calls : List Call}
    (h : track opened calls = none) : ¬ c.Answered opened calls := by
  rintro ⟨last, hlast, -⟩
  rw [h] at hlast
  cases hlast

/-- `fail_` calls its handler last. -/
theorem decides_failWith {r : Reaction} (hnames : ∀ name ∈ r.names, ¬ c.Refuses name)
    (failure : LearnFailure) :
    Decides (r.Keeps false) c.learning (c.failWith failure (r.run cfg)) := by
  obtain ⟨hlearning, hkept, hlost⟩ := (ran cfg r (c.fail failure).1 hnames).from_none rfl
  have htrack := track_failure c.learning .failed failure (r.run cfg (c.fail failure).1).2
  constructor
  · intro hkeeps
    exact (htrack.trans (hkept hkeeps)).trans (congrArg some hlearning.symm)
  · intro hanswered
    by_contra hloses
    exact not_answered_of_track (htrack.trans (hlost hloses)) hanswered

variable (cfg) in
/-- What sets `IDLE` after its handler loses whatever the handler arms. -/
theorem track_idle_iff {r : Reaction} (hidle : c.learning = none)
    (hnames : ∀ name ∈ r.names, ¬ c.Refuses name) (opened : Option Bytes) :
    track opened (r.run cfg c).2 = some none ↔ opened = none ∧ r = .done := by
  constructor
  · intro htrack
    obtain ⟨-, hkept, hlost⟩ := (ran cfg r c hnames).from_none hidle
    have hnone := track_none_of_track htrack
    have hdone : r = .done := by
      by_cases hkeeps : r.Keeps false
      · rw [hkept hkeeps] at hnone
        exact left_eq_none.mp (Option.some.inj hnone)
      · rw [hlost hkeeps] at hnone
        cases hnone
    subst hdone
    exact ⟨Option.some.inj htrack, rfl⟩
  · rintro ⟨rfl, rfl⟩
    rfl

theorem decides_refuseWith {r : Reaction} (hnames : ∀ name ∈ r.names, ¬ c.Refuses name)
    (name : Bytes) {reason : Bytes} (hreason : (Effect.learnFailed reason).ends = false)
    (opened : Option Bytes) :
    Decides (opened = none ∧ r = .done) opened (c.refuseWith name reason (r.run cfg)) := by
  have hiff := track_idle_iff cfg (r := r)
    (c := { c with pendingName := name, lastResult := reason, state := .failed }) rfl hnames opened
  have htrack : track opened (c.refuseWith name reason (r.run cfg)).2
      = track opened (r.run cfg
          { c with pendingName := name, lastResult := reason, state := .failed }).2 := by
    show track (if (Effect.learnFailed reason).ends then none else opened) _ = _
    rw [hreason]
    rfl
  exact ⟨fun h => htrack.trans (hiff.mpr h),
    fun hanswered => hiff.mp (htrack.symm.trans (track_of_answered rfl hanswered))⟩

variable (cfg) in
theorem decides_armWith {r : Reaction} (hnames : ∀ name ∈ r.names, ¬ c.Refuses name) (name : Bytes)
    (timeoutMs nowMs : UInt32) (opened : Option Bytes) :
    Decides ((c.Refuses name → opened = none ∧ r = .done) ∧
        (¬ c.Refuses name → ∀ other ∈ opened, other = name))
      opened (c.armWith cfg name timeoutMs nowMs (r.run cfg)) := by
  by_cases hrefused : c.Refuses name
  · have hout : Decides (opened = none ∧ r = .done) opened
        (c.armWith cfg name timeoutMs nowMs (r.run cfg)) := by
      unfold armWith
      split
      · exact decides_refuseWith hnames name (ends_nameRejected _) opened
      · rename_i hname
        rw [if_pos (hrefused.resolve_left hname)]
        exact decides_refuseWith hnames name ends_storeFull opened
    exact hout.congr ⟨fun h => h.1 hrefused, fun h => ⟨fun _ => h, absurd hrefused⟩⟩
  · obtain ⟨hlearning, -, hcalls⟩ :=
      armWith_of_not_refuses cfg hrefused timeoutMs nowMs (r.run cfg)
    have htrack : track opened (c.armWith cfg name timeoutMs nowMs (r.run cfg)).2
        = if ∀ other ∈ opened, other = name then some (some name) else none := by
      rw [hcalls]
      exact track_started opened name
    constructor
    · rintro ⟨-, hsame⟩
      rw [htrack, if_pos (hsame hrefused), hlearning]
    · intro hanswered
      refine ⟨fun h => absurd h hrefused, fun _ => ?_⟩
      by_contra hother
      exact not_answered_of_track (htrack.trans (if_neg hother)) hanswered

/-- A `learn` that re-arms goes on after the handler of the learn that it cancels. -/
theorem decides_rearm {onFailed onRefused : Reaction} (harmed : c.state = .armed)
    (hfailed : ∀ name ∈ onFailed.names, ¬ c.Refuses name)
    (hrefused : ∀ name ∈ onRefused.names, ¬ c.Refuses name) (name : Bytes)
    (timeoutMs nowMs : UInt32) :
    Decides ((c.Refuses name → onFailed = .done ∧ onRefused = .done) ∧
        (¬ c.Refuses name → onFailed.Keeps false ∧ ∀ other ∈ onFailed.left, other = name))
      c.learning
      (c.learnWith cfg name timeoutMs nowMs (onFailed.run cfg) (onRefused.run cfg)) := by
  have hran := ran cfg onFailed (c.fail .cancelled).1 hfailed
  obtain ⟨-, hkept, hlost⟩ := hran.from_none rfl
  have hstore : (c.failWith .cancelled (onFailed.run cfg)).1.store = c.store := hran.store
  have hrefuses := refuses_congr hstore
  have harm := decides_armWith cfg
    (fun other hmem => (hrefuses other).not.mpr (hrefused other hmem)) name timeoutMs nowMs
    onFailed.left
  rw [hrefuses, left_eq_none] at harm
  have htrack : track c.learning (c.learnWith cfg name timeoutMs nowMs (onFailed.run cfg)
        (onRefused.run cfg)).2
      = (track none (onFailed.run cfg (c.fail .cancelled).1).2).bind
        (track · ((c.failWith .cancelled (onFailed.run cfg)).1.armWith cfg name timeoutMs nowMs
          (onRefused.run cfg)).2) := by
    rw [learnWith, if_pos harmed, ← track_append]
    exact track_failure _ _ _ _
  have hlearning : (c.learnWith cfg name timeoutMs nowMs (onFailed.run cfg)
      (onRefused.run cfg)).1.learning = ((c.failWith .cancelled (onFailed.run cfg)).1.armWith cfg
        name timeoutMs nowMs (onRefused.run cfg)).1.learning := by
    rw [learnWith, if_pos harmed]
  by_cases hkeeps : onFailed.Keeps false
  · rw [hkept hkeeps] at htrack
    constructor
    · intro h
      rw [htrack, hlearning]
      exact harm.kept ⟨h.1, fun hok => (h.2 hok).2⟩
    · rintro ⟨last, hlast, hanswered⟩
      rw [hlearning] at hanswered
      have h := harm.lost ⟨last, htrack.symm.trans hlast, hanswered⟩
      exact ⟨h.1, fun hok => ⟨hkeeps, h.2 hok⟩⟩
  · rw [hlost hkeeps] at htrack
    constructor
    · rintro ⟨hno, hyes⟩
      by_cases hname : c.Refuses name
      · exact absurd ((hno hname).1 ▸ trivial) hkeeps
      · exact absurd (hyes hname).1 hkeeps
    · exact fun hanswered => absurd hanswered (not_answered_of_track htrack)

/-- Whether the registry refuses the capture. -/
def PutFails (cfg : CaptureConfig) (saves : Bool) (c : LearningCloner) : Prop :=
  ((Op.put (c.captured cfg)).attempt saves c.store).1 ≠ .ok

variable (cfg) in
/-- `commit_capture_` sets `IDLE` after the handler of its failure. -/
theorem decides_commitCaptureWith {r : Reaction} (hnames : ∀ name ∈ r.names, ¬ c.Refuses name)
    (saves : Bool) :
    Decides (c.PutFails cfg saves → r = .done) c.learning
      (c.commitCaptureWith cfg saves (r.run cfg)) := by
  by_cases hput : c.PutFails cfg saves
  · have hkept := attempt_put_of_ne_ok hput
    obtain ⟨result, store, hattempt⟩ : ∃ result store,
        (Op.put (c.captured cfg)).attempt saves c.store = (result, store) := ⟨_, _, rfl⟩
    unfold PutFails at hput
    rw [hattempt] at hput hkept
    obtain rfl : store = c.store := hkept
    have hout : c.commitCaptureWith cfg saves (r.run cfg)
        = ({ (r.run cfg { c with lastResult := ascii "store_error:" ++ result.text
                                 state := .failed }).1 with state := .idle },
          ⟨c.state, .put (c.captured cfg) result⟩ ::
            ⟨.failed, .learnFailed (ascii "store_error:" ++ result.text)⟩ ::
            (r.run cfg { c with lastResult := ascii "store_error:" ++ result.text
                                state := .failed }).2) := by
      unfold commitCaptureWith
      rw [hattempt]
      cases result <;> first | rfl | exact absurd rfl hput
    have hiff := track_idle_iff cfg (r := r)
      (c := { c with lastResult := ascii "store_error:" ++ result.text, state := .failed }) rfl
      hnames none
    have htrack : track c.learning (c.commitCaptureWith cfg saves (r.run cfg)).2
        = track none (r.run cfg { c with lastResult := ascii "store_error:" ++ result.text
                                         state := .failed }).2 := by
      rw [hout]
      show track (if (Effect.learnFailed _).ends then none else _) _ = _
      rw [ends_storeError, if_pos rfl]
    have hidle : (c.commitCaptureWith cfg saves (r.run cfg)).1.learning = none := by
      rw [hout]
      rfl
    constructor
    · intro h
      rw [htrack, hidle]
      exact hiff.mpr ⟨rfl, h (by unfold PutFails; rwa [hattempt])⟩
    · intro hanswered _
      exact (hiff.mp (htrack.symm.trans (track_of_answered hidle hanswered))).2
  · refine ⟨fun _ => ?_, fun _ h => absurd h hput⟩
    have hok := not_not.mp hput
    unfold commitCaptureWith commitCapture
    generalize (Op.put (c.captured cfg)).attempt saves c.store = out at hok ⊢
    obtain ⟨result, store⟩ := out
    obtain rfl : result = .ok := hok
    rfl

end Reactions

/-! ## Runs -/

/-- The learns of the automation are not refused: valid names, and a name of the registry or a free
    slot in it. -/
def Accepts (c : LearningCloner) (step : HandledEvent) : Prop :=
  (∀ name ∈ step.onFailed.names, ¬ c.Refuses name) ∧ ∀ name ∈ step.onRefused.names, ¬ c.Refuses name

/-- Whether an event loses no learn.  Where it ends a learn and is done, the automation is free; where
    it refuses a `learn` or cannot store the capture, it may learn nothing; where it re-arms, it may
    learn what the event goes on to learn. -/
def Safe (cfg : CaptureConfig) (c : LearningCloner) (step : HandledEvent) : Prop :=
  match step.event with
  | .learn name _ _ =>
    (c.Refuses name → (c.state = .armed → step.onFailed = .done) ∧ step.onRefused = .done) ∧
      (¬ c.Refuses name → c.state = .armed →
        step.onFailed.Keeps false ∧ ∀ other ∈ step.onFailed.left, other = name)
  | .cancel => c.state = .armed → step.onFailed.Keeps false
  | .onReceive saves rawData nowUs nowMs =>
    c.state = .armed → (c.capture.receive cfg rawData nowUs nowMs).2 = true →
      PutFails cfg saves { c with capture := (c.capture.receive cfg rawData nowUs nowMs).1 } →
      step.onFailed = .done
  | .loop saves nowMs =>
    c.state = .armed →
      (c.capture.ready = true → nowMs - c.capture.readySinceMs ≥ cfg.settleMs →
        c.PutFails cfg saves → step.onFailed = .done) ∧
      (c.capture.ready = false → (nowMs - c.deadlineMs).toInt32 ≥ 0 → step.onFailed.Keeps false)
  | .action _ _ => True

/-- The `learn_started` of the learn that a run begins in. -/
def opening (c : LearningCloner) : List Call :=
  match c.learning with
  | some name => [⟨.armed, .learnStarted name⟩]
  | none => []

section Steps

variable {cfg} {c : LearningCloner}

/-- An event that calls nothing and keeps to its learn. -/
theorem decides_nothing {P : Prop} (hP : P) {d : LearningCloner} (hlearning : d.learning = c.learning) :
    Decides P c.learning (d, []) :=
  ⟨fun _ => congrArg some hlearning.symm, fun _ => hP⟩

section Events

variable {onFailed onRefused : Reaction} (hfailed : ∀ name ∈ onFailed.names, ¬ c.Refuses name)
include hfailed

/-- A `learn` cancels the learn of an armed cloner, and of no other. -/
theorem decides_learnWith (hrefused : ∀ name ∈ onRefused.names, ¬ c.Refuses name) (name : Bytes)
    (timeoutMs nowMs : UInt32) :
    Decides (c.Safe cfg ⟨.learn name timeoutMs nowMs, onFailed, onRefused⟩) c.learning
      (c.learnWith cfg name timeoutMs nowMs (onFailed.run cfg) (onRefused.run cfg)) := by
  by_cases harmed : c.state = .armed
  · refine (decides_rearm harmed hfailed hrefused name timeoutMs nowMs).congr ?_
    exact and_congr (imp_congr_right fun _ => and_congr_left fun _ => imp_iff_right harmed)
      (imp_congr_right fun _ => imp_iff_right harmed)
  · have hnone := learning_of_not_armed harmed
    have harm := decides_armWith cfg hrefused name timeoutMs nowMs none
    rw [hnone, learnWith, if_neg harmed]
    refine harm.congr (and_congr (imp_congr_right fun _ => and_congr_left fun _ => ?_) ?_)
    · exact iff_of_true (fun h => absurd h harmed) rfl
    · exact imp_congr_right fun _ => iff_of_true (fun h => absurd h harmed) nofun

theorem decides_cancelWith :
    Decides (c.Safe cfg ⟨.cancel, onFailed, onRefused⟩) c.learning
      (c.cancelWith (onFailed.run cfg)) := by
  unfold cancelWith
  split
  · rename_i hidle
    exact decides_nothing (fun h => absurd h hidle) rfl
  · rename_i harmed
    exact (decides_failWith hfailed .cancelled).congr (imp_iff_right (not_not.mp harmed))

/-- A window is lost on a handler only where it completes the capture and the registry refuses that. -/
theorem decides_onReceiveWith (saves : Bool) (rawData : List Int32) (nowUs nowMs : UInt32) :
    Decides (c.Safe cfg ⟨.onReceive saves rawData nowUs nowMs, onFailed, onRefused⟩) c.learning
      (c.onReceiveWith cfg saves rawData nowUs nowMs (onFailed.run cfg)) := by
  unfold onReceiveWith
  split
  · rename_i hidle
    exact decides_nothing (fun h => absurd h hidle) rfl
  · rename_i harmed
    have harmed := not_not.mp harmed
    split
    · rename_i capture hreceive
      refine decides_nothing (fun _ h => ?_) rfl
      rw [hreceive] at h
      cases h
    · rename_i capture hreceive
      have hcommit := decides_commitCaptureWith cfg
        (c := { c with capture := capture }) hfailed saves
      refine hcommit.congr ?_
      show (c.state = .armed → (c.capture.receive cfg rawData nowUs nowMs).2 = true → _) ↔ _
      rw [hreceive]
      exact (imp_iff_right harmed).trans (imp_iff_right rfl)

/-- The clock ends a learn by storing a settled capture, or by failing an overdue one. -/
theorem decides_loopWith (saves : Bool) (nowMs : UInt32) :
    Decides (c.Safe cfg ⟨.loop saves nowMs, onFailed, onRefused⟩) c.learning
      (c.loopWith cfg saves nowMs (onFailed.run cfg)) := by
  unfold loopWith
  split
  · rename_i hidle
    exact decides_nothing (fun h => absurd h hidle) rfl
  · rename_i harmed
    have harmed := not_not.mp harmed
    split
    · rename_i hsettled
      refine (decides_commitCaptureWith cfg hfailed saves).congr ((imp_iff_right harmed).trans ?_)
      simp [hsettled]
    · rename_i hunsettled
      split
      · rename_i hoverdue
        obtain ⟨hready, hlate⟩ := hoverdue
        refine (decides_failWith hfailed _).congr ((imp_iff_right harmed).trans ?_)
        refine ⟨fun h => h.2 hready hlate, fun h => ⟨fun hyes => ?_, fun _ _ => h⟩⟩
        rw [hready] at hyes
        cases hyes
      · rename_i hwaiting
        refine decides_nothing (fun _ => ⟨fun hready hsince => ?_, fun hready hlate => ?_⟩) rfl
        · exact absurd ⟨hready, hsince⟩ hunsettled
        · exact absurd ⟨hready, hlate⟩ hwaiting

end Events

/-- **An event loses no learn exactly when it is safe.** -/
theorem decides_step {step : HandledEvent} (haccepts : c.Accepts step) :
    Decides (c.Safe cfg step) c.learning (c.stepWith cfg step) := by
  obtain ⟨event, onFailed, onRefused⟩ := step
  obtain ⟨hfailed, hrefused⟩ := haccepts
  cases event with
  | learn name timeoutMs nowMs => exact decides_learnWith hfailed hrefused name timeoutMs nowMs
  | cancel => exact decides_cancelWith hfailed
  | onReceive saves rawData nowUs nowMs => exact decides_onReceiveWith hfailed saves rawData nowUs nowMs
  | loop saves nowMs => exact decides_loopWith hfailed saves nowMs
  | action saves action => exact decides_nothing trivial rfl

theorem runWith_append (steps rest : List HandledEvent) : ∀ c : LearningCloner,
    c.runWith cfg (steps ++ rest)
      = (((c.runWith cfg steps).1.runWith cfg rest).1,
          (c.runWith cfg steps).2 ++ ((c.runWith cfg steps).1.runWith cfg rest).2) := by
  induction steps with
  | nil => exact fun c => rfl
  | cons step steps ih =>
    intro c
    simp only [List.cons_append, runWith, ih, List.append_assoc]

/-- In a run of safe events, the learn in progress is the one the component is armed for. -/
theorem track_runWith (steps : List HandledEvent) : ∀ c : LearningCloner,
    (∀ before step rest, steps = before ++ step :: rest → (c.runWith cfg before).1.Accepts step) →
    (∀ before step rest, steps = before ++ step :: rest → (c.runWith cfg before).1.Safe cfg step) →
    track c.learning (c.runWith cfg steps).2 = some (c.runWith cfg steps).1.learning := by
  induction steps with
  | nil => exact fun c _ _ => rfl
  | cons step steps ih =>
    intro c haccepts hsafe
    have hstep : track c.learning (c.stepWith cfg step).2 = some (c.stepWith cfg step).1.learning :=
      (decides_step (haccepts [] step steps rfl)).kept (hsafe [] step steps rfl)
    have hrest := ih (c.stepWith cfg step).1
      (fun before next rest h => haccepts (step :: before) next rest (congrArg (step :: ·) h))
      (fun before next rest h => hsafe (step :: before) next rest (congrArg (step :: ·) h))
    show track c.learning ((c.stepWith cfg step).2 ++ _) = _
    rw [track_append, hstep]
    exact hrest

theorem reported_iff_answered (d : LearningCloner) (calls : List Call) :
    d.Reported (c.opening ++ calls) ↔ d.Answered c.learning calls := by
  have hiff := d.answered_iff (c.opening ++ calls) none
  have htrack : track none (c.opening ++ calls) = track c.learning calls := by
    unfold opening
    cases c.learning with
    | none => rfl
    | some name => rfl
  unfold Answered at hiff ⊢
  rw [htrack] at hiff
  rw [hiff]
  exact ⟨fun h => ⟨nofun, h⟩, And.right⟩

end Steps

/-- **A learn from a failure handler is kept by the paths that call the handler last.**  In every run
    with an automation whose learns are not refused, every learn is reported or still armed for at
    every return exactly when no event learns in a handler that it goes on after: that of a refusal,
    of a capture it cannot store, or, unless for its own name, of the learn it re-arms over. -/
theorem learns_reported_iff (cfg : CaptureConfig) (c : LearningCloner) (steps : List HandledEvent)
    (haccepts : ∀ before step rest, steps = before ++ step :: rest →
      (c.runWith cfg before).1.Accepts step) :
    (∀ before rest, steps = before ++ rest →
        (c.runWith cfg before).1.Reported (c.opening ++ (c.runWith cfg before).2)) ↔
      ∀ before step rest, steps = before ++ step :: rest →
        (c.runWith cfg before).1.Safe cfg step := by
  constructor
  · intro hreported before
    -- on the length of the run so far, whose events are then safe
    induction hlength : before.length using Nat.strong_induction_on generalizing before with
    | _ length ih =>
      intro step rest hsteps
      have hbefore : track c.learning (c.runWith cfg before).2
          = some (c.runWith cfg before).1.learning := by
        refine track_runWith before c ?_ ?_
        · intro first next more hmore
          exact haccepts first next (more ++ step :: rest) (by simp [hsteps, hmore])
        · intro first next more hmore
          refine ih first.length ?_ first rfl next (more ++ step :: rest) (by simp [hsteps, hmore])
          rw [← hlength, hmore]
          simp
      have hanswered := hreported (before ++ [step]) rest (by simp [hsteps])
      rw [reported_iff_answered, runWith_append] at hanswered
      obtain ⟨last, hlast, hlearning⟩ := hanswered
      rw [track_append, hbefore, Option.bind_some] at hlast
      refine (decides_step (haccepts before step rest hsteps)).lost ⟨last, ?_, hlearning⟩
      simpa only [runWith, List.append_nil] using hlast
  · intro hsafe before rest hsteps
    rw [reported_iff_answered]
    refine answered_of_track (track_runWith before c ?_ ?_)
    · intro first step more hbefore
      exact haccepts first step (more ++ rest) (by rw [hsteps, hbefore, List.append_assoc]; rfl)
    · intro first step more hbefore
      exact hsafe first step (more ++ rest) (by rw [hsteps, hbefore, List.append_assoc]; rfl)

/-- A component with a free slot, armed for `old` and with its capture made. -/
def armedForOld : LearningCloner where
  store := CommandStore.configure ⟨2, 128, 12288, 0⟩
  state := .armed
  pendingName := ascii "old"
  capture := { candidate := [300, -300, 300, -300], agreements := 3, ready := true, sawFrame := true }

/-- An automation that answers a failure with a learn of `retry`. -/
def retry : Reaction := .learn (ascii "retry") 0 0 .done .done .done

/-- A retry at a cancelled learn. -/
theorem retry_is_reported :
    let steps : List HandledEvent := [{ event := .cancel, onFailed := retry }]
    ∀ before rest, steps = before ++ rest →
      (armedForOld.runWith {} before).1.Reported
        (armedForOld.opening ++ (armedForOld.runWith {} before).2) := by
  have honly : ∀ {before : List HandledEvent} {step : HandledEvent} {rest : List HandledEvent},
      [{ event := .cancel, onFailed := retry }] = before ++ step :: rest →
        before = [] ∧ step = { event := .cancel, onFailed := retry } := by
    intro before step rest h
    cases before with
    | nil => exact ⟨rfl, (List.cons.inj h).1.symm⟩
    | cons first before => simp at h
  refine (learns_reported_iff {} armedForOld _ fun before step rest h => ?_).mpr
    fun before step rest h => ?_
  · obtain ⟨rfl, rfl⟩ := honly h
    exact ⟨by decide +kernel, by decide +kernel⟩
  · obtain ⟨rfl, rfl⟩ := honly h
    exact fun _ => ⟨nofun, trivial⟩

/-- Three learns of the automation that are lost: to the refusal of a re-arm, to its name, and to a
    capture that cannot be stored. -/
theorem retry_is_lost :
    let step (event : LearnEvent) := armedForOld.stepWith {} { event := event, onFailed := retry }
    armedForOld.state = .armed ∧ armedForOld.Accepts { event := .cancel, onFailed := retry } ∧
      ¬ (step (.learn [] 0 0)).1.Reported (step (.learn [] 0 0)).2 ∧
      ¬ (step (.learn (ascii "new") 0 0)).1.Reported (step (.learn (ascii "new") 0 0)).2 ∧
      ¬ (step (.loop false 800)).1.Reported (step (.loop false 800)).2 := by
  refine ⟨rfl, ⟨by decide +kernel, by decide +kernel⟩, ?_, ?_, ?_⟩
  · decide +kernel
  · decide +kernel
  · decide +kernel

end LearningCloner

end RfCloner
