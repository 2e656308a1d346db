/-
  What the lock of the coordinator is worth (`coordinator.py`).

  Flows, buttons and services call `async_learn`, `async_rename`, `async_delete`, `async_send` and
  `async_cancel` at any time, and each of these does its calls to the device while it holds the lock.
  A task advances from one await to the next, and between two of them other tasks run and the device
  receives and loops on its own.  The tasks are told apart by the order in which they have asked.

  `calls_in_turn` is what the lock gives: at any moment at most one of them calls the device, and their
  calls reach it in the order in which they were asked for.  `learn_reports` is what that is
  for, that what `async_learn` returns is what has become of its own learn; the one exception is a
  capture that comes after it has given up.  `cancel_comes_late` is the price: an `async_cancel`
  cannot cancel a learn that anybody awaits.
-/
import RfCloner.System.Outcomes
import RfCloner.Device.Replay
import RfCloner.Lib.AsyncLock

namespace RfCloner

namespace Coordinator

/-! ## Tasks -/

/-- What is asked of the coordinator. -/
inductive Request where
  | learn (name : Str)
  | rename (commandId : Int) (name : Str)
  | delete (commandId : Int) (name : Str)
  | send (commandId : Int)
  | cancel
  deriving DecidableEq

/-- What reaches the device. -/
inductive DeviceCall where
  | event (event : LearnEvent)
  | send (commandId : Int32)
  deriving DecidableEq

/-- What a task meets at an await.  A call that returns has reached the device; one that raises, and a
    task that is cancelled meanwhile, may or may not have. -/
structure Circumstances where
  delivered : Bool := true
  raises : Bool := false
  saves : Bool := true
  /-- The node has the action `delete_id`. -/
  deletesById : Bool := true
  nowMs : UInt32 := 0
  /-- The deadline of `_async_await_learn` has passed. -/
  expired : Bool := false

def Circumstances.reaches (c : Circumstances) : Bool := c.delivered || !c.raises

/-- The call to the transport, if its arguments are carried. -/
def Request.deviceCall (w : Wire) (c : Circumstances) : Request → Option DeviceCall
  | .learn name => some (.event (.learn (utf8 name) 0 c.nowMs))
  | .rename commandId name =>
    (w.send commandId).map fun arg => .event (.action c.saves (.rename arg.toUInt32 (utf8 name)))
  | .delete commandId name =>
    if c.deletesById then
      (w.send commandId).map fun arg => .event (.action c.saves (.eraseById arg.toUInt32))
    else some (.event (.action c.saves (.erase (utf8 name))))
  | .send commandId => (w.send commandId).map .send
  | .cancel => some (.event .cancel)

/-- Where a task stands. -/
inductive Stage where
  /-- It waits for the lock. -/
  | waiting
  /-- It was cancelled while it waited. -/
  | withdrawn
  /-- It has the lock, and has called nothing yet. -/
  | entered
  /-- It has armed the device and awaits the end of the learn. -/
  | awaiting (call : LearnCall)
  /-- It has returned what the learn has come to; `gaveUp` is whether it has cancelled it. -/
  | returned (call : LearnCall) (gaveUp : Bool)
  | finished
  /-- An exception has left it. -/
  | raised

/-- The task is in its `async with`. -/
def Stage.inside : Stage → Bool
  | .entered | .awaiting _ => true
  | _ => false

structure Task where
  request : Request
  stage : Stage

/-- From one await to the next: what is called, and where the task stands then. -/
def Task.next (cfg : CaptureConfig) (w : Wire) (c : Circumstances) (device : LearningCloner) :
    Task → Option (Option DeviceCall × Stage)
  | ⟨request, .entered⟩ =>
    match request.deviceCall w c with
    | none => some (none, .raised)
    | some call =>
      some (if c.reaches then some call else none,
        if c.raises then .raised
        else
          match request with
          | .learn name => .awaiting (LearnCall.arm cfg name c.nowMs device)
          | _ => .finished)
  | ⟨.learn name, .awaiting call⟩ =>
    match call.phase with
    | .polling =>
      some (none,
        if c.raises then .raised
        else
          match (call.step cfg name (.polled c.expired)).phase with
          | .returned _ => .returned (call.step cfg name (.polled c.expired)) false
          | _ => .awaiting (call.step cfg name (.polled c.expired)))
    | .cancelling =>
      some (if c.reaches then some (.event .cancel) else none,
        if c.raises then .raised else .returned (call.step cfg name .cancelled) true)
    | .returned _ => none
  | _ => none

/-- The device after a call. -/
def DeviceCall.perform (cfg : CaptureConfig) : DeviceCall → LearningCloner → LearningCloner
  | .event e, device => (device.step cfg e).1
  | .send commandId, device =>
    { device with toCloner := (device.toCloner.rfSendId commandId).1 }

/-- A learn that is awaited, after a call. -/
def DeviceCall.observe (cfg : CaptureConfig) (name : Str) : DeviceCall → LearnCall → LearnCall
  | .event e, call => call.onDevice cfg name e
  | .send commandId, call =>
    { call with device := (DeviceCall.send commandId).perform cfg call.device }

def Task.observe (cfg : CaptureConfig) (call : DeviceCall) (task : Task) : Task :=
  match task.request, task.stage with
  | .learn name, .awaiting awaited => { task with stage := .awaiting (call.observe cfg name awaited) }
  | _, _ => task

end Coordinator

/-! ## The coordinator -/

open Coordinator in
/-- The device and the tasks, by the order in which they have asked, with what has reached the
    device from which of them. -/
structure Coordinator where
  device : LearningCloner
  turns : Turns Nat := {}
  tasks : List Task := []
  calls : List (Nat × DeviceCall) := []

namespace Coordinator

inductive Move where
  | ask (request : Request)
  /-- A task is cancelled while it waits for the lock. -/
  | cancelTask (t : Nat)
  /-- A task that waited for the lock runs. -/
  | resume (t : Nat)
  /-- A task that has the lock goes on to its next await. -/
  | advance (t : Nat) (c : Circumstances)
  /-- The device is on its own. -/
  | receive (saves : Bool) (rawData : Frame) (nowUs nowMs : UInt32)
  | loop (saves : Bool) (nowMs : UInt32)

variable (cfg : CaptureConfig) (w : Wire)

/-- Something happens to the device. -/
def happens (call : DeviceCall) (x : Coordinator) : Coordinator :=
  { x with device := call.perform cfg x.device, tasks := x.tasks.map (Task.observe cfg call) }

def setStage (t : Nat) (stage : Stage) (x : Coordinator) : Coordinator :=
  { x with tasks := x.tasks.modify t fun task => { task with stage := stage } }

/-- A task calls, and lets the lock go if it is done. -/
def proceed (t : Nat) (call : Option DeviceCall) (stage : Stage) (x : Coordinator) : Coordinator :=
  let y : Coordinator :=
    match call with
    | some call => { x.happens cfg call with calls := x.calls ++ [(t, call)] }
    | none => x
  if stage.inside then y.setStage t stage
  else { y.setStage t stage with turns := y.turns.leave }

/-- One move. -/
def step (x : Coordinator) : Move → Coordinator
  | .ask request =>
    let turn := x.turns.ask x.tasks.length
    { x with
      turns := turn.2
      tasks := x.tasks ++ [⟨request, if turn.1 then .entered else .waiting⟩] }
  | .cancelTask t => { x with turns := x.turns.cancel t }
  | .resume t =>
    match x.turns.resume t with
    | none => x
    | some (granted, turns) =>
      setStage t (if granted then .entered else .withdrawn) { x with turns := turns }
  | .advance t c =>
    match x.tasks[t]? with
    | none => x
    | some task =>
      match task.next cfg w c x.device with
      | none => x
      | some (call, stage) => x.proceed cfg t call stage
  | .receive saves rawData nowUs nowMs => x.happens cfg (.event (.onReceive saves rawData nowUs nowMs))
  | .loop saves nowMs => x.happens cfg (.event (.loop saves nowMs))

/-- The state after some moves. -/
def run (x : Coordinator) (moves : List Move) : Coordinator := moves.foldl (step cfg w) x

/-! ## Turns -/

variable {cfg w} {x : Coordinator} {t u : Nat} {task : Task} {call : DeviceCall} {stage : Stage}
  {c : Circumstances}

section Tasks

theorem tasks_setStage : (x.setStage t stage).tasks[u]? =
    if t = u then x.tasks[u]?.map fun task => { task with stage := stage } else x.tasks[u]? := by
  unfold setStage
  by_cases htu : t = u
  · subst htu
    rw [if_pos rfl, List.getElem?_modify_eq]
    rfl
  · rw [if_neg htu, List.getElem?_modify_ne _ _ htu]

@[simp] theorem length_setStage : (x.setStage t stage).tasks.length = x.tasks.length :=
  List.length_modify ..

theorem tasks_happens : (x.happens cfg call).tasks[u]? = x.tasks[u]?.map (Task.observe cfg call) :=
  List.getElem?_map

/-- What a task sees of the device moves it nowhere. -/
theorem inside_observe (call : DeviceCall) (task : Task) :
    (task.observe cfg call).stage.inside = task.stage.inside := by
  unfold Task.observe
  split
  · rename_i hstage
    rw [hstage]
    rfl
  · rfl

theorem waiting_observe (call : DeviceCall) (task : Task) :
    (task.observe cfg call).stage = .waiting ↔ task.stage = .waiting := by
  unfold Task.observe
  split
  · rename_i hstage
    rw [hstage]
    simp
  · rfl

/-- How a task goes on.  One case for each way through the code. -/
inductive NextCase (cfg : CaptureConfig) (w : Wire) (c : Circumstances) (device : LearningCloner) :
    Task → Option DeviceCall → Stage → Prop where
  /-- The call raises, or the task is cancelled; what it calls may have reached the device. -/
  | raised (request : Request) (d : Option DeviceCall)
      (hcall : d = none ∨ ∃ call, request.deviceCall w c = some call ∧ d = some call) :
      NextCase cfg w c device ⟨request, .entered⟩ d .raised
  | armed (name : Str) : NextCase cfg w c device ⟨.learn name, .entered⟩
      (some (.event (.learn (utf8 name) 0 c.nowMs)))
      (.awaiting (LearnCall.arm cfg name c.nowMs device))
  | finished (request : Request) (call : DeviceCall) (hcall : request.deviceCall w c = some call)
      (hother : ∀ name, request ≠ .learn name) :
      NextCase cfg w c device ⟨request, .entered⟩ (some call) .finished
  | abandoned (name : Str) (call : LearnCall) (d : Option DeviceCall)
      (hcall : d = none ∨ d = some (.event .cancel)) :
      NextCase cfg w c device ⟨.learn name, .awaiting call⟩ d .raised
  | polled (name : Str) (call : LearnCall) (hphase : call.phase = .polling)
      (hopen : ∀ outcome, (call.step cfg name (.polled c.expired)).phase ≠ .returned outcome) :
      NextCase cfg w c device ⟨.learn name, .awaiting call⟩ none
        (.awaiting (call.step cfg name (.polled c.expired)))
  | returned (name : Str) (call : LearnCall) (outcome : LearnOutcome) (hphase : call.phase = .polling)
      (houtcome : (call.step cfg name (.polled c.expired)).phase = .returned outcome) :
      NextCase cfg w c device ⟨.learn name, .awaiting call⟩ none
        (.returned (call.step cfg name (.polled c.expired)) false)
  | gaveUp (name : Str) (call : LearnCall) (hphase : call.phase = .cancelling) :
      NextCase cfg w c device ⟨.learn name, .awaiting call⟩ (some (.event .cancel))
        (.returned (call.step cfg name .cancelled) true)

theorem reaches_of_returns (h : c.raises = false) : c.reaches = true := by
  unfold Circumstances.reaches
  rw [h]
  exact Bool.or_true _

theorem next_cases {d : Option DeviceCall} {device : LearningCloner}
    (h : task.next cfg w c device = some (d, stage)) : NextCase cfg w c device task d stage := by
  unfold Task.next at h
  split at h
  · rename_i request
    split at h
    · obtain ⟨rfl, rfl⟩ := Prod.mk.inj (Option.some.inj h)
      exact .raised request none (.inl rfl)
    · rename_i call hcall
      obtain ⟨rfl, rfl⟩ := Prod.mk.inj (Option.some.inj h)
      cases hraises : c.raises with
      | true =>
        refine .raised request _ ?_
        split
        · exact .inr ⟨call, hcall, rfl⟩
        · exact .inl rfl
      | false =>
        rw [if_pos (reaches_of_returns hraises), if_neg Bool.false_ne_true]
        cases request with
        | learn name =>
          obtain rfl := Option.some.inj hcall
          exact .armed name
        | rename | delete | send | cancel =>
          exact .finished _ call hcall fun name heq => by cases heq
  · rename_i name call
    split at h
    · rename_i hphase
      obtain ⟨rfl, rfl⟩ := Prod.mk.inj (Option.some.inj h)
      split
      · exact .abandoned name call none (.inl rfl)
      · split
        · rename_i outcome houtcome
          exact .returned name call outcome hphase houtcome
        · rename_i hopen
          exact .polled name call hphase hopen
    · rename_i hphase
      obtain ⟨rfl, rfl⟩ := Prod.mk.inj (Option.some.inj h)
      cases hraises : c.raises with
      | true =>
        refine .abandoned name call _ ?_
        split
        · exact .inr rfl
        · exact .inl rfl
      | false =>
        rw [if_pos (reaches_of_returns hraises), if_neg Bool.false_ne_true]
        exact .gaveUp name call hphase
    · cases h
  · cases h

/-- A task that goes on is in its `async with`, and does not wait for the lock afterwards. -/
theorem inside_of_next {d : Option DeviceCall} {device : LearningCloner}
    (h : task.next cfg w c device = some (d, stage)) : task.stage.inside = true ∧ stage ≠ .waiting := by
  cases next_cases h <;> exact ⟨rfl, Stage.noConfusion⟩

end Tasks

/-- **What every move keeps.** -/
structure Serial (x : Coordinator) : Prop where
  fair : x.turns.Fair
  known : ∀ s ∈ x.turns.served, s < x.tasks.length
  waiting : ∀ t, t ∈ x.turns.waiting ↔ x.tasks[t]?.map Task.stage = some .waiting
  /-- A task is in its `async with` exactly while it holds the lock. -/
  inside : ∀ t, x.tasks[t]?.map (fun task => task.stage.inside) = some true ↔ x.turns.holder = some t
  called : ∀ a ∈ x.calls, a.1 ∈ x.turns.served
  ordered : x.calls.Pairwise fun a b => a.1 ≤ b.1

theorem serial_start (device : LearningCloner) : Serial { device := device } := by
  constructor <;> simp [Turns.fair_start, Turns.waiting]

/-- Something happens to the device. -/
theorem Serial.happens (h : Serial x) (call : DeviceCall) : Serial (x.happens cfg call) := by
  refine ⟨h.fair, fun s hs => ?_, fun t => ?_, fun t => ?_, h.called, h.ordered⟩
  · show s < (x.tasks.map _).length
    rw [List.length_map]
    exact h.known s hs
  · rw [tasks_happens]
    refine (h.waiting t).trans ?_
    cases x.tasks[t]? with
    | none => rfl
    | some task => simp [waiting_observe]
  · rw [tasks_happens]
    refine Iff.trans ?_ (h.inside t)
    cases x.tasks[t]? with
    | none => rfl
    | some task => simp [inside_observe]

theorem getElem?_concat (tasks : List Task) (task : Task) :
    (tasks ++ [task])[u]? = if u = tasks.length then some task else tasks[u]? := by
  rcases Nat.lt_trichotomy u tasks.length with hlt | rfl | hgt
  · rw [List.getElem?_append_left hlt, if_neg (by omega)]
  · rw [if_pos rfl, List.getElem?_concat_length]
  · rw [if_neg (by omega), List.getElem?_eq_none (by rw [List.length_append]; exact hgt),
      List.getElem?_eq_none (by omega)]

/-- A task asks for something. -/
theorem Serial.ask (h : Serial x) (request : Request) : Serial (x.step cfg w (.ask request)) := by
  have hnew : x.tasks[x.tasks.length]? = none := List.getElem?_eq_none le_rfl
  have hbound : ∀ v ∈ x.turns.waiting, v < x.tasks.length := by
    intro v hv
    by_contra hge
    have hwaits := (h.waiting v).mp hv
    rw [List.getElem?_eq_none (by omega)] at hwaits
    cases hwaits
  have hfair : (x.turns.ask x.tasks.length).2.Fair :=
    h.fair.ask h.known fun v hv => hbound _ (List.mem_map_of_mem hv)
  have hlength (task : Task) : (x.tasks ++ [task]).length = x.tasks.length + 1 := List.length_append
  have hstep : x.step cfg w (.ask request) =
      { x with
        turns := (x.turns.ask x.tasks.length).2
        tasks := x.tasks ++
          [⟨request, if (x.turns.ask x.tasks.length).1 then .entered else .waiting⟩] } := rfl
  rw [hstep]
  cases hask : (x.turns.ask x.tasks.length).1 with
  | true =>
    obtain ⟨hnone, hholder, hnow, hwaiting⟩ := h.fair.ask_served hask
    refine ⟨hfair, fun s hs => ?_, fun u => ?_, fun u => ?_, fun a ha => ?_, h.ordered⟩
    · have hs : s ∈ (x.turns.ask x.tasks.length).2.served := hs
      rw [hnow] at hs
      rw [hlength]
      rcases List.mem_append.mp hs with hold | hself
      · exact Nat.lt_succ_of_lt (h.known s hold)
      · obtain rfl := List.mem_singleton.mp hself
        exact Nat.lt_succ_self _
    · rw [hwaiting, h.waiting u, getElem?_concat]
      split
      · rename_i hu
        rw [hu, hnew]
        simp
      · rfl
    · rw [hholder, getElem?_concat]
      split
      · rename_i hu
        simp [hu, Stage.inside]
      · rename_i hu
        rw [h.inside u, hnone]
        simp [Ne.symm hu]
    · show a.1 ∈ (x.turns.ask x.tasks.length).2.served
      rw [hnow]
      exact List.mem_append_left _ (h.called a ha)
  | false =>
    obtain ⟨hholder, hnow, hwaiting⟩ := Turns.ask_queued hask
    refine ⟨hfair, fun s hs => ?_, fun u => ?_, fun u => ?_, fun a ha => ?_, h.ordered⟩
    · have hs : s ∈ (x.turns.ask x.tasks.length).2.served := hs
      rw [hnow] at hs
      rw [hlength]
      exact Nat.lt_succ_of_lt (h.known s hs)
    · rw [hwaiting, List.mem_append, h.waiting u, getElem?_concat]
      split
      · rename_i hu
        simp [hu]
      · rename_i hu
        simp [hu]
    · rw [hholder, getElem?_concat]
      split
      · rename_i hu
        rw [← h.inside u, hu, hnew]
        simp [Stage.inside]
      · exact h.inside u
    · show a.1 ∈ (x.turns.ask x.tasks.length).2.served
      rw [hnow]
      exact h.called a ha

/-- A task that waits is cancelled. -/
theorem Serial.cancelTask (h : Serial x) (t : Nat) : Serial (x.step cfg w (.cancelTask t)) :=
  ⟨h.fair.cancel t, h.known, fun u => by
    show u ∈ (x.turns.cancel t).waiting ↔ _
    rw [Turns.waiting_cancel]
    exact h.waiting u, h.inside, h.called, h.ordered⟩

/-- A task that waited runs. -/
theorem Serial.resume (h : Serial x) (t : Nat) : Serial (x.step cfg w (.resume t)) := by
  cases hresume : x.turns.resume t with
  | none =>
    have hstep : x.step cfg w (.resume t) = x := by
      show (match x.turns.resume t with | none => x | some (granted, turns) => _) = x
      rw [hresume]
    rw [hstep]
    exact h
  | some out =>
    obtain ⟨granted, turns⟩ := out
    have hstep : x.step cfg w (.resume t) =
        setStage t (if granted then .entered else .withdrawn) { x with turns := turns } := by
      show (match x.turns.resume t with | none => x | some (granted, turns) => _) = _
      rw [hresume]
    obtain ⟨hwaits, hwaiting, hserved, hwithdrawn⟩ := Turns.waiting_resume hresume
    obtain ⟨task, htask, hstage⟩ := Option.map_eq_some_iff.mp ((h.waiting t).mp hwaits)
    have hknown : t < x.tasks.length := (List.getElem?_eq_some_iff.mp htask).1
    have hlast : ∀ s ∈ turns.served, s ∈ x.turns.served ∨ s = t := by
      cases granted with
      | true =>
        rw [(hserved rfl).1]
        exact fun s hs => (List.mem_append.mp hs).imp_right List.mem_singleton.mp
      | false =>
        rw [(hwithdrawn rfl).1]
        exact fun s hs => .inl hs
    rw [hstep]
    refine ⟨h.fair.resume hresume, fun s hs => ?_, fun u => ?_, fun u => ?_, fun a ha => ?_, h.ordered⟩
    · rw [length_setStage]
      rcases hlast s hs with hold | rfl
      · exact h.known s hold
      · exact hknown
    · show u ∈ turns.waiting ↔ _
      rw [hwaiting, h.fair.nodup_waiting.mem_erase_iff, tasks_setStage]
      split
      · rename_i htu
        subst htu
        rw [htask]
        cases granted <;> simp
      · rename_i htu
        rw [h.waiting u]
        exact and_iff_right (Ne.symm htu)
    · show _ ↔ turns.holder = some u
      rw [tasks_setStage]
      cases granted with
      | true =>
        rw [(hserved rfl).2]
        split
        · rename_i htu
          subst htu
          rw [htask]
          simp [Stage.inside]
        · rename_i htu
          show (x.tasks[u]?.map fun task => task.stage.inside) = some true ↔ _
          rw [h.inside u, h.fair.holder_of_resume hresume]
          simp [htu]
      | false =>
        rw [(hwithdrawn rfl).2, ← h.inside u]
        split
        · rename_i htu
          subst htu
          rw [htask]
          simp [Stage.inside, hstage]
        · rfl
    · show a.1 ∈ turns.served
      have hold := h.called a ha
      cases granted with
      | true =>
        rw [(hserved rfl).1]
        exact List.mem_append_left _ hold
      | false =>
        rw [(hwithdrawn rfl).1]
        exact hold

/-- A task that has the lock calls. -/
theorem Serial.reached (h : Serial x) (hholds : x.turns.holder = some t) (call : DeviceCall) :
    Serial { x.happens cfg call with calls := x.calls ++ [(t, call)] } := by
  obtain ⟨hmem, hle⟩ := h.fair.served_of_holder hholds
  have hhappens : Serial (x.happens cfg call) := h.happens call
  refine ⟨h.fair, hhappens.known, hhappens.waiting, hhappens.inside, fun a ha => ?_, ?_⟩
  · rcases List.mem_append.mp ha with hold | hself
    · exact h.called a hold
    · obtain rfl := List.mem_singleton.mp hself
      exact hmem
  · refine List.pairwise_append.mpr ⟨h.ordered, List.pairwise_singleton _ _, fun a ha b hb => ?_⟩
    obtain rfl := List.mem_singleton.mp hb
    exact hle a.1 (h.called a ha)

/-- A task that has the lock goes on, and lets it go if it is done. -/
theorem Serial.goOn (h : Serial x) (hholds : x.turns.holder = some t) (hstage : stage ≠ .waiting) :
    Serial (if stage.inside then x.setStage t stage
      else { x.setStage t stage with turns := x.turns.leave }) := by
  obtain ⟨task, htask, hinside⟩ := Option.map_eq_some_iff.mp ((h.inside t).mpr hholds)
  have hwaiting (u : Nat) : u ∈ x.turns.waiting ↔
      (x.setStage t stage).tasks[u]?.map Task.stage = some .waiting := by
    rw [h.waiting u, tasks_setStage]
    split
    · rename_i htu
      subst htu
      have hnot : task.stage ≠ .waiting := by
        intro hwaits
        rw [hwaits] at hinside
        cases hinside
      simp [htask, hstage, hnot]
    · rfl
  have hother (u : Nat) (htu : t ≠ u) :
      ¬ (x.setStage t stage).tasks[u]?.map (fun task => task.stage.inside) = some true := by
    rw [tasks_setStage, if_neg htu, h.inside u, hholds]
    exact fun heq => htu (Option.some.inj heq)
  have hself : (x.setStage t stage).tasks[t]?.map (fun task => task.stage.inside)
      = some stage.inside := by
    rw [tasks_setStage, if_pos rfl, htask]
    rfl
  split
  · rename_i hstays
    refine ⟨h.fair, fun s hs => ?_, hwaiting, fun u => ?_, h.called, h.ordered⟩
    · rw [length_setStage]
      exact h.known s hs
    · by_cases htu : t = u
      · subst htu
        exact iff_of_true (hself.trans (congrArg some hstays)) hholds
      · refine iff_of_false (hother u htu) fun heq => htu ?_
        exact Option.some.inj (hholds.symm.trans heq)
  · rename_i hleaves
    refine ⟨h.fair.leave hholds, fun s hs => ?_, fun u => ?_, fun u => ?_, h.called, h.ordered⟩
    · show s < (x.setStage t stage).tasks.length
      rw [length_setStage]
      exact h.known s hs
    · rw [Turns.waiting_leave]
      exact hwaiting u
    · refine iff_of_false ?_ fun heq => (by cases heq)
      by_cases htu : t = u
      · subst htu
        intro heq
        exact hleaves (Option.some.inj (hself.symm.trans heq))
      · exact hother u htu

theorem Serial.proceed (h : Serial x) (htask : x.tasks[t]? = some task)
    (hinside : task.stage.inside = true) (hstage : stage ≠ .waiting) (d : Option DeviceCall) :
    Serial (x.proceed cfg t d stage) := by
  have hholds : x.turns.holder = some t := (h.inside t).mp (by rw [htask]; exact congrArg some hinside)
  cases d with
  | none => exact h.goOn hholds hstage
  | some call => exact (h.reached hholds call).goOn hholds hstage

/-- **What every move keeps** is kept. -/
theorem Serial.step (h : Serial x) (move : Move) : Serial (x.step cfg w move) := by
  cases move with
  | ask request => exact h.ask request
  | cancelTask t => exact h.cancelTask t
  | resume t => exact h.resume t
  | advance t c =>
    show Serial (match x.tasks[t]? with | none => x | some task => _)
    split
    · exact h
    · rename_i task htask
      split
      · exact h
      · rename_i d stage hnext
        obtain ⟨hinside, hstage⟩ := inside_of_next hnext
        exact h.proceed htask hinside hstage d
  | receive saves rawData nowUs nowMs => exact h.happens _
  | loop saves nowMs => exact h.happens _

/-! ## What a task leaves behind -/

theorem device_proceed (d : Option DeviceCall) : (x.proceed cfg t d stage).device =
    match d with
    | some call => call.perform cfg x.device
    | none => x.device := by
  unfold proceed
  cases d <;> cases stage.inside <;> rfl

/-- Only a learn that is awaited watches the device. -/
theorem observe_of_outside (houtside : task.stage.inside = false) (call : DeviceCall) :
    task.observe cfg call = task := by
  unfold Task.observe
  split
  · rename_i hstage
    rw [hstage] at houtside
    cases houtside
  · rfl

theorem request_observe (call : DeviceCall) (task : Task) :
    (task.observe cfg call).request = task.request := by
  unfold Task.observe
  split <;> rfl

/-- A task that goes on leaves the others where they stand. -/
theorem Serial.tasks_proceed (h : Serial x) (htask : x.tasks[t]? = some task)
    (hinside : task.stage.inside = true) (d : Option DeviceCall) :
    (x.proceed cfg t d stage).tasks[u]? =
      if t = u then some ⟨task.request, stage⟩ else x.tasks[u]? := by
  have hholds : x.turns.holder = some t := (h.inside t).mp (by rw [htask]; exact congrArg some hinside)
  have hset (y : Coordinator) : (if stage.inside then y.setStage t stage
      else { y.setStage t stage with turns := y.turns.leave }).tasks[u]?
        = (y.setStage t stage).tasks[u]? := by split <;> rfl
  have hothers (htu : t ≠ u) (call : DeviceCall) : (x.happens cfg call).tasks[u]? = x.tasks[u]? := by
    rw [tasks_happens]
    cases hu : x.tasks[u]? with
    | none => rfl
    | some other =>
      have houtside : other.stage.inside = false := by
        rw [← Bool.not_eq_true]
        intro hin
        have hboth := (h.inside u).mp (by rw [hu]; exact congrArg some hin)
        exact htu (Option.some.inj (hholds.symm.trans hboth))
      exact congrArg some (observe_of_outside houtside call)
  cases d with
  | none =>
    refine (hset x).trans ?_
    rw [tasks_setStage]
    split
    · rename_i htu
      rw [← htu, htask]
      rfl
    · rfl
  | some call =>
    refine (hset { x.happens cfg call with calls := x.calls ++ [(t, call)] }).trans ?_
    rw [tasks_setStage]
    split
    · rename_i htu
      show ((x.happens cfg call).tasks[u]?.map fun task => { task with stage := stage }) = _
      rw [tasks_happens, ← htu, htask]
      show some (Task.mk (task.observe cfg call).request stage) = _
      rw [request_observe]
    · rename_i htu
      exact hothers htu call

end Coordinator

/-! ## A learn that nobody interferes with -/

namespace LearningCloner

variable {cfg : CaptureConfig} {c : LearningCloner} {event : LearnEvent}

/-- What the device does on its own. -/
def Passive : LearnEvent → Prop
  | .onReceive _ _ _ _ | .loop _ _ => True
  | _ => False

variable (cfg c) in
/-- On its own the device goes on as it was, or its learn is over. -/
theorem passive_step (hpassive : Passive event) :
    ((c.step cfg event).2 = [] ∧ (c.step cfg event).1.state = c.state) ∨
    (c.state = .armed ∧ (c.step cfg event).2 ≠ [] ∧ (c.step cfg event).1.state ≠ .armed) := by
  have hcase := step_cases cfg c event
  have hcommit (saves : Bool) (d : LearningCloner) : (d.commitCapture cfg saves).2 ≠ [] :=
    let ⟨_, hput⟩ := exists_put_commitCapture cfg saves d
    List.ne_nil_of_mem hput
  generalize c.step cfg event = next at hcase ⊢
  cases hcase with
  | rearmed | armed | acted => exact hpassive.elim
  | ignored | received | waited => exact .inl ⟨rfl, rfl⟩
  | failed _ harmed => exact .inr ⟨harmed, List.cons_ne_nil _ _, fun h => by cases h⟩
  | committed saves rawData nowUs nowMs harmed =>
    exact .inr ⟨harmed, hcommit saves _, state_commitCapture_ne saves _⟩
  | settled saves nowMs harmed =>
    exact .inr ⟨harmed, hcommit saves _, state_commitCapture_ne saves _⟩

end LearningCloner

namespace LearnCall

variable {cfg : CaptureConfig} {name : Str} {x : LearnCall} {event : LearnEvent}

/-- **What holds of a call while it is the only one that calls the device.** -/
structure Alone (name : Str) (x : LearnCall) : Prop extends Followed name x where
  mine : x.device.state = .armed → x.own = .armed
  taken : x.own = .captured → x.device.state = .captured ∧ ∃ id, x.learned = [id]
  untaken : x.own ≠ .captured → x.learned = []

/-- Arming takes the device over. -/
theorem alone_arm {device : LearningCloner}
    (hs : device.store.readOnly = false → device.store.Sound) (nowMs : UInt32) :
    Alone name (arm cfg name nowMs device) := by
  have hprogress : Progress name (arm cfg name nowMs device) := progress_arm hs nowMs
  have hfollowed := hprogress.followed rfl
  have hown : (arm cfg name nowMs device).own
      = if (device.learn cfg (utf8 name) 0 nowMs).1.state = .armed then .armed else .ended := rfl
  refine ⟨hfollowed, fun harmed => ?_, fun hcaptured => ?_, fun _ => rfl⟩
  · rw [hown]
    exact if_pos harmed
  · rw [hown] at hcaptured
    split at hcaptured <;> cases hcaptured

/-- What the device does on its own leaves the name to the call. -/
theorem Alone.leaves (h : Alone name x) (hpassive : LearningCloner.Passive event) :
    x.Leaves cfg name event := by
  refine ⟨fun command hsome hne hnot => ?_, fun haction => ?_⟩
  · rcases LearningCloner.turn_step cfg x.device event with ⟨hcalls, -, -, -⟩ | ⟨-, hnone, -, -⟩ |
      ⟨harmed, hname, hstored, -, -⟩
    · rw [hcalls] at hsome
      cases hsome
    · cases hnone.symm.trans hsome
    · -- it is the learn of the call
      obtain rfl := Option.some.inj (hstored.symm.trans hsome)
      exact absurd (hname.trans (h.armed (h.mine harmed)).2) hne
  · obtain ⟨saves, action, rfl⟩ := haction
    exact hpassive.elim

theorem Alone.onDevice (h : Alone name x) (hpassive : LearningCloner.Passive event) :
    Alone name (x.onDevice cfg name event) := by
  have hleaves : x.Leaves cfg name event := h.leaves hpassive
  have hfollowed := h.toFollowed.onDevice hleaves
  have hdevice : (x.onDevice cfg name event).device = (x.device.step cfg event).1 := rfl
  rcases LearningCloner.passive_step cfg x.device hpassive with ⟨hcalls, hstate⟩ |
    ⟨harmed, hcalls, hover⟩
  · obtain ⟨hown, hlearned⟩ := onDevice_of_quiet name hcalls
    refine ⟨hfollowed, fun harmed => ?_, fun hcaptured => ?_, fun hnot => ?_⟩
    · rw [hown]
      exact h.mine (hstate ▸ harmed)
    · rw [hdevice, hstate, hlearned]
      exact h.taken (hown ▸ hcaptured)
    · rw [hlearned]
      exact h.untaken (hown ▸ hnot)
  · have hmine := h.mine harmed
    have hnone : x.learned = [] := h.untaken (by rw [hmine]; exact OwnLearn.noConfusion)
    rcases LearningCloner.turn_step cfg x.device event with ⟨hquiet, -, -, -⟩ |
      ⟨-, hunstored, -, -⟩ | ⟨-, hname, hstored, hput, hcaptured⟩
    · exact absurd hquiet hcalls
    · obtain ⟨hown, hlearned⟩ := onDevice_of_unstored name hcalls hunstored
      rw [if_pos hmine] at hown
      refine ⟨hfollowed, fun harmed => absurd harmed hover, fun hcaptured => ?_, fun _ => ?_⟩
      · rw [hown] at hcaptured
        cases hcaptured
      · rw [hlearned, hnone]
    · obtain ⟨hown, hlearned⟩ := onDevice_of_stored name hstored
      rw [if_pos hmine] at hown
      refine ⟨hfollowed, fun harmed => absurd harmed hover, fun _ => ⟨hcaptured, ?_⟩, fun hnot =>
        absurd hown hnot⟩
      obtain ⟨-, ⟨id, hid⟩, -⟩ := CommandStore.bearer_attempt_put h.sound hput
      have hsame := hname.trans (h.armed hmine).2
      rw [hsame] at hid
      rw [hlearned, hnone, if_pos hsame, hid]
      exact ⟨id, rfl⟩

/-- What a call returns is what has become of its learn, unless it has given up. -/
def Reports (x : LearnCall) (gaveUp : Bool) : Prop :=
  ∃ outcome, x.phase = .returned outcome ∧
    (outcome.succeeded = true ↔ x.own = .captured ∧ gaveUp = false) ∧
    (outcome.succeeded = true → ∃ id, x.learned = [id] ∧ outcome.commandId = some (id.toNat : Int))

end LearnCall

namespace LearnCall

variable {cfg : CaptureConfig} {name : Str} {x : LearnCall}

variable (cfg name x) in
/-- A read changes nothing but where the call stands. -/
theorem step_polled (expired : Bool) :
    (x.step cfg name (.polled expired)).device = x.device ∧
    (x.step cfg name (.polled expired)).own = x.own ∧
    (x.step cfg name (.polled expired)).learned = x.learned := by
  unfold step
  cases x.phase <;> exact ⟨rfl, rfl, rfl⟩

theorem Alone.polled (h : Alone name x) (expired : Bool) :
    Alone name (x.step cfg name (.polled expired)) := by
  obtain ⟨hdevice, hown, hlearned⟩ := step_polled cfg name x expired
  generalize x.step cfg name (.polled expired) = y at hdevice hown hlearned ⊢
  obtain ⟨device, phase, own, learned⟩ := y
  obtain rfl : device = x.device := hdevice
  obtain rfl : own = x.own := hown
  obtain rfl : learned = x.learned := hlearned
  exact ⟨⟨h.sound, h.armed, h.own, h.captured⟩, h.mine, h.taken, h.untaken⟩

/-- The read that decides. -/
theorem Alone.reports (h : Alone name x) (hphase : x.phase = .polling) {expired : Bool}
    {outcome : LearnOutcome} (houtcome : (x.step cfg name (.polled expired)).phase = .returned outcome) :
    (x.step cfg name (.polled expired)).Reports false ∧ x.device.state ≠ .armed := by
  have hstate : x.device.learnStatus.state = str "armed" ↔ x.device.state = .armed :=
    LearningCloner.state_learnStatus .armed
  have harmed : x.device.state ≠ .armed := by
    intro harmed
    unfold step at houtcome
    simp only [hphase, if_pos (hstate.mpr harmed)] at houtcome
    split at houtcome <;> cases houtcome
  refine ⟨⟨outcome, houtcome, ?_⟩, harmed⟩
  obtain ⟨hdevice, hown, hlearned⟩ := step_polled cfg name x expired
  have heq : outcome = .ofStatus name x.device.learnStatus := by
    unfold step at houtcome
    simp only [hphase, if_neg fun hstatus => harmed (hstate.mp hstatus)] at houtcome
    exact (CallPhase.returned.inj houtcome).symm
  rw [hown, hlearned, heq]
  obtain ⟨hsucceeded, hfailed⟩ := h.toFollowed.ofStatus fun hown => (h.taken hown).1
  have hcaptured (hsuccess : (LearnOutcome.ofStatus name x.device.learnStatus).succeeded = true) :
      x.own = .captured := by
    by_contra hnot
    obtain ⟨id, hid, -⟩ := hsucceeded hsuccess
    rw [h.untaken hnot] at hid
    cases hid
  refine ⟨⟨fun hsuccess => ⟨hcaptured hsuccess, rfl⟩, fun htaken => ?_⟩, fun hsuccess => ?_⟩
  · by_contra hfailure
    exact hfailed (Bool.not_eq_true _ ▸ hfailure) htaken.1
  · obtain ⟨id, hid, hcommand⟩ := hsucceeded hsuccess
    obtain ⟨own, hown⟩ := (h.taken (hcaptured hsuccess)).2
    rw [hown] at hid
    obtain rfl := List.mem_singleton.mp hid
    exact ⟨id, hown, hcommand⟩

/-- Whoever gives up reports a failure. -/
theorem reports_cancelled (hphase : x.phase = .cancelling) :
    (x.step cfg name .cancelled).Reports true := by
  unfold step
  simp only [hphase]
  exact ⟨_, rfl, ⟨fun h => (by cases h), fun h => (by cases h.2)⟩, fun h => (by cases h)⟩

end LearnCall

namespace Coordinator

variable {cfg : CaptureConfig} {w : Wire} {x : Coordinator} {t u : Nat} {task : Task}
  {stage : Stage}

/-- **What the learns have to say**, those that are awaited and those that have returned. -/
structure Sincere (x : Coordinator) : Prop where
  sound : x.device.store.readOnly = false → x.device.store.Sound
  awaited : ∀ (t : Nat) (request : Request) (call : LearnCall),
    x.tasks[t]? = some ⟨request, .awaiting call⟩ →
    ∃ name, request = .learn name ∧ call.device = x.device ∧ LearnCall.Alone name call ∧
      ∀ outcome, call.phase ≠ .returned outcome
  returned : ∀ (t : Nat) (request : Request) (call : LearnCall) (gaveUp : Bool),
    x.tasks[t]? = some ⟨request, .returned call gaveUp⟩ → call.Reports gaveUp

theorem Sincere.happens (h : Sincere x) {event : LearnEvent}
    (hpassive : LearningCloner.Passive event) : Sincere (x.happens cfg (.event event)) := by
  have hbefore {t : Nat} {task : Task} (htask : (x.happens cfg (.event event)).tasks[t]? = some task) :
      ∃ before, x.tasks[t]? = some before ∧ before.observe cfg (.event event) = task := by
    rw [tasks_happens] at htask
    exact Option.map_eq_some_iff.mp htask
  refine ⟨(LearningCloner.sound_step cfg event h.sound).1, fun t request call htask => ?_,
    fun t request call gaveUp htask => ?_⟩
  · obtain ⟨⟨request', before⟩, hold, hobserve⟩ := hbefore htask
    unfold Task.observe at hobserve
    split at hobserve
    · rename_i name awaited hrequest hstage
      obtain rfl : request' = .learn name := hrequest
      obtain rfl : before = .awaiting awaited := hstage
      obtain ⟨rfl, hcall⟩ := Task.mk.inj hobserve
      obtain rfl := Stage.awaiting.inj hcall
      obtain ⟨name', hname, hdevice, halone, hphase⟩ := h.awaited t _ _ hold
      obtain rfl := Request.learn.inj hname
      refine ⟨name, rfl, ?_, halone.onDevice hpassive, hphase⟩
      show (awaited.device.step cfg event).1 = (x.device.step cfg event).1
      rw [hdevice]
    · rename_i hother
      obtain ⟨rfl, rfl⟩ := Task.mk.inj hobserve
      obtain ⟨name, rfl, -⟩ := h.awaited t _ _ hold
      exact absurd rfl (hother name call rfl)
  · obtain ⟨⟨request', before⟩, hold, hobserve⟩ := hbefore htask
    unfold Task.observe at hobserve
    split at hobserve
    · cases hobserve
    · obtain ⟨rfl, rfl⟩ := Task.mk.inj hobserve
      exact h.returned t _ _ _ hold

theorem sound_perform (call : DeviceCall) {device : LearningCloner}
    (hs : device.store.readOnly = false → device.store.Sound) :
    (call.perform cfg device).store.readOnly = false → (call.perform cfg device).store.Sound := by
  cases call with
  | event e => exact (LearningCloner.sound_step cfg e hs).1
  | send commandId =>
    have hstore : (DeviceCall.send commandId |>.perform cfg device).store = device.store :=
      Cloner.store_sendById
    rw [hstore]
    exact hs

/-- While a task is in its `async with`, no other is. -/
theorem Serial.alone (h : Serial x) {other : Task} (htask : x.tasks[t]? = some task)
    (hinside : task.stage.inside = true) (hother : x.tasks[u]? = some other)
    (hin : other.stage.inside = true) : t = u := by
  have ht := (h.inside t).mp (by rw [htask]; exact congrArg some hinside)
  have hu := (h.inside u).mp (by rw [hother]; exact congrArg some hin)
  exact Option.some.inj (ht.symm.trans hu)

theorem Sincere.proceed (h : Sincere x) (hs : Serial x) (htask : x.tasks[t]? = some task)
    {d : Option DeviceCall} {c : Circumstances} (hnext : task.next cfg w c x.device = some (d, stage)) :
    Sincere (x.proceed cfg t d stage) := by
  obtain ⟨hinside, -⟩ := inside_of_next hnext
  have htasks (u : Nat) : (x.proceed cfg t d stage).tasks[u]? =
      if t = u then some ⟨task.request, stage⟩ else x.tasks[u]? := hs.tasks_proceed htask hinside d
  have hdevice : (x.proceed cfg t d stage).device = _ := device_proceed d
  have hcase := next_cases hnext
  refine ⟨?_, fun u request call hu => ?_, fun u request call gaveUp hu => ?_⟩
  · rw [hdevice]
    cases d with
    | none => exact h.sound
    | some call => exact sound_perform call h.sound
  · rw [htasks] at hu
    split at hu
    · obtain ⟨rfl, rfl⟩ := Task.mk.inj (Option.some.inj hu)
      rw [hdevice]
      cases hcase with
      | armed name =>
        exact ⟨name, rfl, rfl, LearnCall.alone_arm h.sound c.nowMs, fun _ => CallPhase.noConfusion⟩
      | polled name call hphase hopen =>
        obtain ⟨name', hname, hsame, halone, -⟩ := h.awaited t _ _ htask
        obtain rfl := Request.learn.inj hname
        exact ⟨name, rfl, (LearnCall.step_polled cfg name call c.expired).1.trans hsame,
          halone.polled c.expired, hopen⟩
    · rename_i htu
      exact absurd (hs.alone htask hinside hu rfl) htu
  · rw [htasks] at hu
    split at hu
    · obtain ⟨rfl, rfl⟩ := Task.mk.inj (Option.some.inj hu)
      cases hcase with
      | returned name call outcome hphase houtcome =>
        obtain ⟨name', hname, -, halone, -⟩ := h.awaited t _ _ htask
        obtain rfl := Request.learn.inj hname
        exact (halone.reports hphase houtcome).1
      | gaveUp name call hphase => exact LearnCall.reports_cancelled hphase
    · exact h.returned u _ _ _ hu

theorem Sincere.step (h : Sincere x) (hs : Serial x) (move : Move) : Sincere (x.step cfg w move) := by
  -- a task that asks, or waits no longer, has not called yet
  have hmoved {y : Coordinator} (hdevice : y.device = x.device)
      (htasks : ∀ (u : Nat) (task : Task), y.tasks[u]? = some task →
        x.tasks[u]? = some task ∨ task.stage = .waiting ∨ task.stage = .entered ∨
          task.stage = .withdrawn) : Sincere y := by
    refine ⟨hdevice ▸ h.sound, fun u request call hu => ?_, fun u request call gaveUp hu => ?_⟩
    · rcases htasks u _ hu with hold | hstage | hstage | hstage
      · rw [hdevice]
        exact h.awaited u request call hold
      all_goals cases hstage
    · rcases htasks u _ hu with hold | hstage | hstage | hstage
      · exact h.returned u request call gaveUp hold
      all_goals cases hstage
  cases move with
  | ask request =>
    refine hmoved rfl fun u task hu => ?_
    have hu : (x.tasks ++ [_])[u]? = some task := hu
    rw [getElem?_concat] at hu
    split at hu
    · obtain rfl := Option.some.inj hu
      cases (x.turns.ask x.tasks.length).1
      · exact .inr (.inl rfl)
      · exact .inr (.inr (.inl rfl))
    · exact .inl hu
  | cancelTask t => exact hmoved rfl fun u task hu => .inl hu
  | resume t =>
    show Sincere (match x.turns.resume t with | none => x | some (granted, turns) => _)
    split
    · exact h
    · rename_i granted turns hresume
      refine hmoved rfl fun u task hu => ?_
      rw [tasks_setStage] at hu
      split at hu
      · obtain ⟨before, -, rfl⟩ := Option.map_eq_some_iff.mp hu
        cases granted
        · exact .inr (.inr (.inr rfl))
        · exact .inr (.inr (.inl rfl))
      · exact .inl hu
  | advance t c =>
    show Sincere (match x.tasks[t]? with | none => x | some task => _)
    split
    · exact h
    · rename_i task htask
      split
      · exact h
      · rename_i d stage hnext
        exact h.proceed hs htask hnext
  | receive saves rawData nowUs nowMs => exact h.happens trivial
  | loop saves nowMs => exact h.happens trivial

/-! ## Who has armed the device -/

/-- If the device is armed then for a learn that is awaited, or for one that an exception has left. -/
def Accounted (x : Coordinator) : Prop :=
  x.device.state = .armed →
    (∃ (u : Nat) (name : Str) (call : LearnCall), x.tasks[u]? = some ⟨.learn name, .awaiting call⟩) ∨
      ∃ (u : Nat) (name : Str), x.tasks[u]? = some ⟨.learn name, .raised⟩

theorem state_cancel_ne (device : LearningCloner) : device.cancel.1.state ≠ .armed := by
  unfold LearningCloner.cancel
  split
  · rename_i hidle
    exact hidle
  · exact LearnState.noConfusion

/-- Only a learn arms the device. -/
theorem armed_of_perform {request : Request} {call : DeviceCall} {c : Circumstances}
    {device : LearningCloner} (hcall : request.deviceCall w c = some call)
    (hother : ∀ name, request ≠ .learn name) (harmed : (call.perform cfg device).state = .armed) :
    device.state = .armed := by
  cases request with
  | learn name => exact absurd rfl (hother name)
  | rename commandId name =>
    obtain ⟨arg, -, rfl⟩ := Option.map_eq_some_iff.mp hcall
    exact harmed
  | delete commandId name =>
    unfold Request.deviceCall at hcall
    dsimp only at hcall
    split at hcall
    · obtain ⟨arg, -, rfl⟩ := Option.map_eq_some_iff.mp hcall
      exact harmed
    · obtain rfl := Option.some.inj hcall
      exact harmed
  | send commandId =>
    obtain ⟨arg, -, rfl⟩ := Option.map_eq_some_iff.mp hcall
    exact harmed
  | cancel =>
    obtain rfl := Option.some.inj hcall
    exact absurd harmed (state_cancel_ne device)

/-- The learns that account for the device go on to. -/
theorem Accounted.mono {y : Coordinator} (h : Accounted x)
    (hstate : y.device.state = .armed → x.device.state = .armed)
    (hawaited : ∀ (u : Nat) (name : Str) (call : LearnCall),
      x.tasks[u]? = some ⟨.learn name, .awaiting call⟩ →
        ∃ call', y.tasks[u]? = some ⟨.learn name, .awaiting call'⟩)
    (hraised : ∀ (u : Nat) (name : Str), x.tasks[u]? = some ⟨.learn name, .raised⟩ →
      y.tasks[u]? = some ⟨.learn name, .raised⟩) : Accounted y := by
  intro harmed
  rcases h (hstate harmed) with ⟨u, name, call, hu⟩ | ⟨u, name, hu⟩
  · obtain ⟨call', hu'⟩ := hawaited u name call hu
    exact .inl ⟨u, name, call', hu'⟩
  · exact .inr ⟨u, name, hraised u name hu⟩

theorem Accounted.happens (h : Accounted x) {event : LearnEvent}
    (hpassive : LearningCloner.Passive event) : Accounted (x.happens cfg (.event event)) := by
  refine h.mono (fun harmed => ?_) (fun u name call hu => ?_) fun u name hu => ?_
  · rcases LearningCloner.passive_step cfg x.device hpassive with ⟨-, hstate⟩ | ⟨hbefore, -, -⟩
    · exact hstate ▸ harmed
    · exact hbefore
  · rw [tasks_happens, hu]
    exact ⟨_, rfl⟩
  · rw [tasks_happens, hu]
    rfl

theorem Accounted.proceed (h : Accounted x) (hs : Serial x) (hsincere : Sincere x)
    (htask : x.tasks[t]? = some task) {d : Option DeviceCall} {c : Circumstances}
    (hnext : task.next cfg w c x.device = some (d, stage)) : Accounted (x.proceed cfg t d stage) := by
  obtain ⟨hinside, -⟩ := inside_of_next hnext
  have htasks (u : Nat) : (x.proceed cfg t d stage).tasks[u]? =
      if t = u then some ⟨task.request, stage⟩ else x.tasks[u]? := hs.tasks_proceed htask hinside d
  have hself : (x.proceed cfg t d stage).tasks[t]? = some ⟨task.request, stage⟩ := by
    rw [htasks, if_pos rfl]
  -- nobody else awaits a learn, and what an exception has left stays
  have hkept (houtside : ∀ name call, task ≠ ⟨.learn name, .awaiting call⟩)
      (hstate : (x.proceed cfg t d stage).device.state = .armed → x.device.state = .armed) :
      Accounted (x.proceed cfg t d stage) := by
    refine h.mono hstate (fun u name call hu => ?_) fun u name hu => ?_
    · obtain rfl := hs.alone htask hinside hu rfl
      exact absurd (Option.some.inj (htask.symm.trans hu)) (houtside name call)
    · rw [htasks]
      split
      · rename_i htu
        subst htu
        obtain rfl := Option.some.inj (htask.symm.trans hu)
        cases hinside
      · exact hu
  have hdevice : (x.proceed cfg t d stage).device = _ := device_proceed d
  cases next_cases hnext with
  | armed name => exact fun _ => .inl ⟨t, name, _, hself⟩
  | polled name call => exact fun _ => .inl ⟨t, name, _, hself⟩
  | abandoned name call => exact fun _ => .inr ⟨t, name, hself⟩
  | finished request call hcall hother =>
    refine hkept (fun name call heq => by cases heq) fun harmed => ?_
    rw [hdevice] at harmed
    exact armed_of_perform hcall hother harmed
  | raised request d hcall =>
    cases request with
    | learn name => exact fun _ => .inr ⟨t, name, hself⟩
    | rename | delete | send | cancel =>
      refine hkept (fun name call heq => by cases heq) fun harmed => ?_
      rw [hdevice] at harmed
      rcases hcall with rfl | ⟨call, hcall, rfl⟩
      · exact harmed
      · exact armed_of_perform hcall (fun name heq => by cases heq) harmed
  | returned name call outcome hphase houtcome =>
    intro harmed
    rw [hdevice] at harmed
    obtain ⟨name', hname, hsame, halone, -⟩ := hsincere.awaited t _ _ htask
    obtain rfl := Request.learn.inj hname
    exact absurd (hsame ▸ harmed) (halone.reports hphase houtcome).2
  | gaveUp name call hphase =>
    intro harmed
    rw [hdevice] at harmed
    exact absurd harmed (state_cancel_ne x.device)

theorem Accounted.step (h : Accounted x) (hs : Serial x) (hsincere : Sincere x) (move : Move) :
    Accounted (x.step cfg w move) := by
  cases move with
  | ask request =>
    have hkept {u : Nat} {task : Task} (hu : x.tasks[u]? = some task) :
        (x.step cfg w (.ask request)).tasks[u]? = some task := by
      show (x.tasks ++ [_])[u]? = some task
      rw [List.getElem?_append_left (List.getElem?_eq_some_iff.mp hu).1]
      exact hu
    exact h.mono id (fun u name call hu => ⟨call, hkept hu⟩) fun u name hu => hkept hu
  | cancelTask t => exact h.mono id (fun u name call hu => ⟨call, hu⟩) fun u name hu => hu
  | resume t =>
    show Accounted (match x.turns.resume t with | none => x | some (granted, turns) => _)
    split
    · exact h
    · rename_i granted turns hresume
      have hwaits := (hs.waiting t).mp (Turns.waiting_resume hresume).1
      have hkept {u : Nat} {task : Task} (hu : x.tasks[u]? = some task)
          (hstage : task.stage ≠ .waiting) (stage : Stage) :
          (setStage t stage { x with turns := turns }).tasks[u]? = some task := by
        rw [tasks_setStage, if_neg]
        · exact hu
        · rintro rfl
          rw [hu] at hwaits
          exact hstage (Option.some.inj hwaits)
      exact h.mono id (fun u name call hu => ⟨call, hkept hu Stage.noConfusion _⟩)
        fun u name hu => hkept hu Stage.noConfusion _
  | advance t c =>
    show Accounted (match x.tasks[t]? with | none => x | some task => _)
    split
    · exact h
    · rename_i task htask
      split
      · exact h
      · rename_i d stage hnext
        exact h.proceed hs hsincere htask hnext
  | receive saves rawData nowUs nowMs => exact h.happens trivial
  | loop saves nowMs => exact h.happens trivial

/-! ## Runs -/

/-- Every task that is in its `async with` can go on, whatever it meets. -/
theorem Sincere.isSome_next (h : Sincere x) (htask : x.tasks[t]? = some task)
    (hinside : task.stage.inside = true) (c : Circumstances) :
    (task.next cfg w c x.device).isSome = true := by
  obtain ⟨request, stage⟩ := task
  cases stage with
  | entered =>
    unfold Task.next
    dsimp only
    split <;> rfl
  | awaiting call =>
    obtain ⟨name, rfl, -, -, hphase⟩ := h.awaited t request call htask
    unfold Task.next
    dsimp only
    cases hcall : call.phase with
    | polling | cancelling => rfl
    | returned outcome => exact absurd hcall (hphase outcome)
  | waiting | withdrawn | returned | finished | raised => cases hinside

section Runs

variable (cfg : CaptureConfig) (w : Wire) (lands : Nat → Bool) (config : Config)
  (random : Option BridgeId) (history : List Event) (before : List LearnEvent) (moves : List Move)

/-- The coordinator as it starts, with a device after some history, and after what has happened to it
    since it was switched on. -/
def start : Coordinator :=
  { device := (LearningCloner.boot
      (Session.run lands (Session.powerOn lands config random) history).store).after cfg before }

/-- What holds after any moves. -/
theorem run_invariants :
    Serial (run cfg w (start cfg lands config random history before) moves) ∧
      Sincere (run cfg w (start cfg lands config random history before) moves) := by
  have hstart : Sincere (start cfg lands config random history before) :=
    ⟨LearningCloner.sound_after (Session.founded_run lands config random history).ram before,
      fun t _ _ h => (by cases h), fun t _ _ _ h => (by cases h)⟩
  exact List.foldlRecOn moves (motive := fun y => Serial y ∧ Sincere y) (Coordinator.step cfg w)
    ⟨serial_start _, hstart⟩ fun y hy move _ => ⟨hy.1.step move, hy.2.step hy.1 move⟩

theorem run_accounted
    (hidle : (start cfg lands config random history before).device.state ≠ .armed) :
    Accounted (run cfg w (start cfg lands config random history before) moves) := by
  have hall : ∀ n, Accounted
      (run cfg w (start cfg lands config random history before) (moves.take n)) := by
    intro n
    induction n with
    | zero => exact fun harmed => absurd harmed hidle
    | succ n ih =>
      obtain ⟨hserial, hsincere⟩ :=
        run_invariants cfg w lands config random history before (moves.take n)
      rw [List.take_add_one]
      unfold run at ih hserial hsincere ⊢
      rw [List.foldl_append]
      cases moves[n]? with
      | none => exact ih
      | some move => exact ih.step hserial hsincere move
  have hlast := hall moves.length
  rwa [List.take_length] at hlast

/-- **The calls come in turn.**  For any device, whatever is asked of the coordinator, and in whatever
    order the tasks run, are cancelled and fail: no two of them are in their `async with` at once;
    their calls reach the device in the order in which they were asked for; and while one waits for
    the lock, some task can go on. -/
theorem calls_in_turn (moves : List Move) :
    let x := run cfg w (start cfg lands config random history before) moves
    (∀ (t u : Nat) (task other : Task), x.tasks[t]? = some task → x.tasks[u]? = some other →
      task.stage.inside = true → other.stage.inside = true → t = u) ∧
    x.calls.Pairwise (fun a b => a.1 ≤ b.1) ∧
    ((∃ t : Nat, x.tasks[t]?.map Task.stage = some .waiting) →
      (∃ (t : Nat) (task : Task), x.tasks[t]? = some task ∧
        ∀ c, (task.next cfg w c x.device).isSome = true) ∨
      ∃ t, (x.turns.resume t).isSome = true) := by
  intro x
  obtain ⟨hserial, hsincere⟩ := run_invariants cfg w lands config random history before moves
  refine ⟨fun t u task other ht hu htask hother => hserial.alone ht htask hu hother,
    hserial.ordered, ?_⟩
  rintro ⟨t, hwaits⟩
  cases hholder : x.turns.holder with
  | some u =>
    obtain ⟨task, htask, hinside⟩ := Option.map_eq_some_iff.mp ((hserial.inside u).mpr hholder)
    exact .inl ⟨u, task, htask, fun c => hsincere.isSome_next htask hinside c⟩
  | none =>
    refine .inr (hserial.fair.exists_resume hholder fun hnil => ?_)
    have hmem := (hserial.waiting t).mpr hwaits
    rw [Turns.waiting, hnil] at hmem
    cases hmem

/-- **A learn reports what has become of it.**  For any device, whatever else is asked of the
    coordinator meanwhile and whatever fails, as long as nobody else calls the device: a learn that
    has returned has succeeded exactly if its capture was stored before it gave up, and then with the
    id of the one command that was learned under its name. -/
theorem learn_reports {t : Nat} {request : Request} {call : LearnCall} {gaveUp : Bool}
    (hreturned : (run cfg w (start cfg lands config random history before) moves).tasks[t]?
      = some ⟨request, .returned call gaveUp⟩) :
    ∃ outcome, call.phase = .returned outcome ∧
      (outcome.succeeded = true ↔ call.own = .captured ∧ gaveUp = false) ∧
      (outcome.succeeded = true →
        ∃ id, call.learned = [id] ∧ outcome.commandId = some (id.toNat : Int)) :=
  (run_invariants cfg w lands config random history before moves).2.returned t request call gaveUp
    hreturned

/-- **A cancel comes late.**  For any device that is not armed when the coordinator starts, as long as
    nobody else calls the device: when an `async_cancel` has its turn there is nothing to cancel,
    unless an exception has left a learn before. -/
theorem cancel_comes_late
    (hidle : (start cfg lands config random history before).device.state ≠ .armed) {t : Nat}
    (hturn : (run cfg w (start cfg lands config random history before) moves).tasks[t]?
      = some ⟨.cancel, .entered⟩)
    (hreturned : ∀ (u : Nat) (name : Str),
      (run cfg w (start cfg lands config random history before) moves).tasks[u]?
        ≠ some ⟨.learn name, .raised⟩) :
    let device := (run cfg w (start cfg lands config random history before) moves).device
    device.step cfg .cancel = (device, []) := by
  intro device
  have hserial := (run_invariants cfg w lands config random history before moves).1
  have haccounted := run_accounted cfg w lands config random history before moves hidle
  have hnot : device.state ≠ .armed := by
    intro harmed
    rcases haccounted harmed with ⟨u, name, call, hu⟩ | ⟨u, name, hu⟩
    · -- a learn that is awaited has the lock
      obtain rfl := hserial.alone hturn rfl hu rfl
      cases hturn.symm.trans hu
    · exact hreturned u name hu
  show device.cancel = (device, [])
  unfold LearningCloner.cancel
  rw [if_pos hnot]

end Runs

/-! ## A learn that is cancelled while it is awaited -/

/-- A button of a remote is learned, and meanwhile somebody wants to cancel. -/
def cancelled : List Move :=
  [.ask (.learn (str "fan")), .advance 0 {}, .ask .cancel, .advance 0 {},
    .receive true (Observed.windowOf 5000 [Observed.pulseTrain 400, Observed.pulseTrain 400,
      Observed.pulseTrain 400]) 5000 5,
    .advance 0 {}, .resume 1]

/-- The first of its moves, with a device that starts for the first time. -/
def cancelledAfter (n : Nat) : Coordinator :=
  run {} Wire.exact (start {} (fun _ => true) ⟨2, 16, 400, 7⟩ none [] []) (cancelled.take n)

/-- The learn has returned, and the cancel has its turn. -/
theorem tasks_cancelledAfter : ∃ call, (cancelledAfter 7).tasks[0]?
      = some ⟨.learn (str "fan"), .returned call false⟩ ∧ call.reported = some (true, some 1) ∧
    (cancelledAfter 7).tasks[1]? = some ⟨.cancel, .entered⟩ ∧ (cancelledAfter 7).tasks.length = 2 := by
  refine ⟨_, rfl, by decide +kernel, rfl, by decide +kernel⟩

theorem calls_in_turn_cancelled :
    (cancelledAfter 7).calls.Pairwise (fun a b => a.1 ≤ b.1) ∧
    ((∃ (t : Nat) (task : Task), (cancelledAfter 3).tasks[t]? = some task ∧
        ∀ c, (task.next {} Wire.exact c (cancelledAfter 3).device).isSome = true) ∨
      ∃ t, ((cancelledAfter 3).turns.resume t).isSome = true) :=
  ⟨(calls_in_turn {} Wire.exact (fun _ => true) ⟨2, 16, 400, 7⟩ none [] [] (cancelled.take 7)).2.1,
    (calls_in_turn {} Wire.exact (fun _ => true) ⟨2, 16, 400, 7⟩ none [] [] (cancelled.take 3)).2.2
      ⟨1, rfl⟩⟩

/-- The learn has stored what was captured, under the id that it reports. -/
theorem learn_reports_cancelled : ∃ call : LearnCall,
    (cancelledAfter 7).tasks[0]? = some ⟨.learn (str "fan"), .returned call false⟩ ∧
    call.own = .captured ∧ call.learned = [1] := by
  obtain ⟨call, htask, hreported, -, -⟩ := tasks_cancelledAfter
  obtain ⟨outcome, hphase, hsucceeded, hid⟩ := learn_reports {} Wire.exact (fun _ => true)
    ⟨2, 16, 400, 7⟩ none [] [] (cancelled.take 7) htask
  obtain ⟨outcome', hphase', hsuccess, hcommand⟩ := LearnCall.phase_of_reported hreported
  obtain rfl := CallPhase.returned.inj (hphase.symm.trans hphase')
  obtain ⟨id, hlearned, hsame⟩ := hid hsuccess
  refine ⟨call, htask, (hsucceeded.mp hsuccess).1, ?_⟩
  have hone : (id.toNat : Int) = 1 := Option.some.inj (hsame.symm.trans hcommand)
  rw [hlearned, UInt32.toNat_inj.mp (show id.toNat = (1 : UInt32).toNat from Int.ofNat_inj.mp hone)]

/-- The cancel is asked for while the device is armed, and finds it idle. -/
theorem cancel_comes_late_cancelled : (cancelledAfter 3).device.state = .armed ∧
    (cancelledAfter 7).device.step {} .cancel = ((cancelledAfter 7).device, []) := by
  obtain ⟨call, hreturned, -, hturn, hlength⟩ := tasks_cancelledAfter
  refine ⟨by decide +kernel, cancel_comes_late {} Wire.exact (fun _ => true) ⟨2, 16, 400, 7⟩ none []
    [] (cancelled.take 7) (by decide +kernel) hturn
    fun u name hu => ?_⟩
  have hlt : u < (cancelledAfter 7).tasks.length := (List.getElem?_eq_some_iff.mp hu).1
  rcases u with _ | _ | u
  · cases hreturned.symm.trans hu
  · cases hturn.symm.trans hu
  · omega

end Coordinator

end RfCloner
