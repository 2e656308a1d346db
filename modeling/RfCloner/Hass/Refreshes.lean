/-
  Refreshes of one replica that overlap (`snapshot.py`, `__init__.py`).

  Every status that is handled starts a task of its own, and a task gives way at each export and at
  the save.  It compares revisions once, before its first export.  What it assigns when the last
  export has been answered replaces whatever the replica has become by then, and what it saves lands
  when the store writes it.  The replica never goes back exactly if tasks finish their exports, and
  their saves land, in the order of the revisions (`replica_never_goes_back_iff`).

  A task that raises out of an `await`, or is cancelled at one, is a task that nothing more happens
  to.  Home Assistant's store is not part of the repository; no order of its writes is relied on,
  and `Ordered` is what one that writes in turn does.
-/
import RfCloner.Hass.Snapshot
import RfCloner.Lib.Runs
import Mathlib.Order.WithBot
import Mathlib.Data.Int.ConditionallyCompleteOrder

namespace RfCloner

open SnapshotManager

/-! ## The tasks -/

/-- Where an `async_refresh` stands: not begun, at an `await`, or at its end. -/
inductive RefreshPhase where
  | created
  /-- The first command of `listing` is being exported. -/
  | exporting (exported : List ExportedCommand) (listing : List CommandInfo)
  | saving (snapshot : Snapshot)
  | ended

structure RefreshTask where
  status : BridgeStatus
  phase : RefreshPhase

/-- The manager, what its store last wrote, and the tasks in the order in which they were created. -/
structure Refreshes where
  manager : SnapshotManager
  stored : Option Snapshot
  tasks : List RefreshTask

inductive RefreshEvent where
  /-- `_async_handle_status` creates a task. -/
  | handled (status : BridgeStatus)
  /-- A task runs up to its first `await`. -/
  | started (task : Nat) (now : Timestamp)
  /-- An export is answered, and the task runs up to its next `await`. -/
  | answered (task : Nat) (result : ExportResult) (now : Timestamp)
  /-- The save of a task lands. -/
  | saved (task : Nat)

namespace Refreshes

/-- `async_load` has read what is stored. -/
def loaded (manager : SnapshotManager) : Refreshes where
  manager := manager
  stored := manager.snapshot
  tasks := []

def setPhase (x : Refreshes) (i : Nat) (phase : RefreshPhase) : Refreshes :=
  { x with tasks := x.tasks.modify i fun task => { task with phase := phase } }

/-- `_async_export_all`, from `listing` on, up to the next `await`: an export, or the save. -/
def exportOn (x : Refreshes) (i : Nat) (status : BridgeStatus) (now : Timestamp)
    (exported : List ExportedCommand) : List CommandInfo → Refreshes
  | [] =>
    let snapshot : Snapshot :=
      { bridgeId := status.bridgeId
        revision := status.revision
        nextCommandId := status.nextCommandId
        capturedAt := now
        commands := exported }
    -- the revision of the replica is not looked at again
    { x with manager := { x.manager with snapshot := some snapshot } }.setPhase i (.saving snapshot)
  | info :: listing => x.setPhase i (.exporting exported (info :: listing))

def step (x : Refreshes) : RefreshEvent → Refreshes
  | .handled status => { x with tasks := x.tasks ++ [⟨status, .created⟩] }
  | .started i now =>
    match x.tasks[i]? with
    | some ⟨status, .created⟩ =>
      if status.bridgeId ≠ x.manager.bridgeId then x.setPhase i .ended
      else if status.restoreIncomplete then x.setPhase i .ended
      else if ¬ x.manager.Outdated status then x.setPhase i .ended
      else x.exportOn i status now [] status.commands
    | _ => x
  | .answered i result now =>
    match x.tasks[i]? with
    | some ⟨status, .exporting exported (_ :: listing)⟩ =>
      match result with
      | .raises => x.setPhase i .ended
      | .unknown => x.setPhase i .ended
      | .command command => x.exportOn i status now (exported ++ [command]) listing
    | _ => x
  | .saved i =>
    match x.tasks[i]? with
    | some ⟨_, .saving snapshot⟩ => { x with stored := some snapshot }.setPhase i .ended
    | _ => x

/-- The state after the first `k` events. -/
abbrev after (x : Refreshes) (events : List RefreshEvent) (k : Nat) : Refreshes :=
  Runs.moment step x events k

theorem after_succ {x : Refreshes} {events : List RefreshEvent} {k : Nat} {event : RefreshEvent}
    (h : events[k]? = some event) : x.after events (k + 1) = (x.after events k).step event :=
  Runs.moment_succ h

/-! ## What an event completes -/

/-- The status whose last export the event answers.  An empty listing has nothing to wait for. -/
def completes (x : Refreshes) : RefreshEvent → Option BridgeStatus
  | .started i _ =>
    match x.tasks[i]? with
    | some ⟨status, .created⟩ =>
      if status.bridgeId = x.manager.bridgeId ∧ status.restoreIncomplete = false ∧
        x.manager.Outdated status ∧ status.commands = [] then some status else none
    | _ => none
  | .answered i (.command _) _ =>
    match x.tasks[i]? with
    | some ⟨status, .exporting _ [_]⟩ => some status
    | _ => none
  | _ => none

/-- The status whose save lands. -/
def lands (x : Refreshes) : RefreshEvent → Option BridgeStatus
  | .saved i =>
    match x.tasks[i]? with
    | some ⟨status, .saving _⟩ => some status
    | _ => none
  | _ => none

/-- The revision of a replica; there may be none. -/
def revision : Option Snapshot → WithBot Int
  | none => ⊥
  | some snapshot => snapshot.revision

section Step

variable {x : Refreshes} {i : Nat} {status : BridgeStatus} {now : Timestamp}
  {exported : List ExportedCommand} {listing : List CommandInfo} {phase : RefreshPhase}

@[simp] theorem manager_setPhase : (x.setPhase i phase).manager = x.manager := rfl

@[simp] theorem stored_setPhase : (x.setPhase i phase).stored = x.stored := rfl

theorem tasks_setPhase (j : Nat) : (x.setPhase i phase).tasks[j]?
    = if i = j then (x.tasks[j]?).map fun task => { task with phase := phase } else x.tasks[j]? := by
  unfold setPhase
  rw [List.getElem?_modify]
  split <;> cases x.tasks[j]? <;> simp_all

/-- A task that is given another phase is the same task. -/
theorem saving_setPhase {j : Nat} {s : BridgeStatus} {snapshot : Snapshot}
    (h : (x.setPhase i phase).tasks[j]? = some ⟨s, .saving snapshot⟩) :
    x.tasks[j]? = some ⟨s, .saving snapshot⟩ ∨
    i = j ∧ phase = .saving snapshot ∧ ∃ old, x.tasks[j]? = some ⟨s, old⟩ := by
  rw [tasks_setPhase] at h
  split at h
  · rename_i hij
    obtain ⟨task, htask, heq⟩ := Option.map_eq_some_iff.mp h
    obtain ⟨status, old⟩ := task
    obtain ⟨rfl, rfl⟩ := RefreshTask.mk.inj heq
    exact Or.inr ⟨hij, rfl, old, htask⟩
  · exact Or.inl h

variable (x i status now exported listing) in
/-- What a stretch of exports comes to: the replica is replaced once nothing is left to export. -/
theorem exportOn_cases : listing ≠ [] ∧
      x.exportOn i status now exported listing = x.setPhase i (.exporting exported listing) ∨
    listing = [] ∧ ∃ snapshot : Snapshot, snapshot.revision = status.revision ∧
      x.exportOn i status now exported listing
        = { x with manager := { x.manager with snapshot := some snapshot } }.setPhase i
            (.saving snapshot) := by
  cases listing with
  | nil => exact Or.inr ⟨rfl, _, rfl, rfl⟩
  | cons info listing => exact Or.inl ⟨List.cons_ne_nil _ _, rfl⟩

end Step

/-- What is being saved for a task has the revision of its status. -/
def Labelled (x : Refreshes) : Prop :=
  ∀ (i : Nat) (status : BridgeStatus) (snapshot : Snapshot),
    x.tasks[i]? = some ⟨status, .saving snapshot⟩ → snapshot.revision = status.revision

/-- What an event does to the replica and to the store: nothing, or it completes the exports of a
    task, or the save of a task lands. -/
inductive Effects (x : Refreshes) (event : RefreshEvent) (y : Refreshes) : Prop where
  | quiet (hcompletes : x.completes event = none) (hlands : x.lands event = none)
      (hmanager : y.manager = x.manager) (hstored : y.stored = x.stored)
      (htasks : ∀ (i : Nat) (status : BridgeStatus) (snapshot : Snapshot),
        y.tasks[i]? = some ⟨status, .saving snapshot⟩ → x.tasks[i]? = some ⟨status, .saving snapshot⟩)
  | completed {status : BridgeStatus} {snapshot : Snapshot} {i : Nat}
      (hcompletes : x.completes event = some status) (hlands : x.lands event = none)
      (htask : ∃ phase, x.tasks[i]? = some ⟨status, phase⟩)
      (hrevision : snapshot.revision = status.revision)
      (hy : y = { x with manager := { x.manager with snapshot := some snapshot } }.setPhase i
        (.saving snapshot))
  | landed {status : BridgeStatus} {snapshot : Snapshot} {i : Nat}
      (hcompletes : x.completes event = none) (hlands : x.lands event = some status)
      (htask : x.tasks[i]? = some ⟨status, .saving snapshot⟩)
      (hy : y = { x with stored := some snapshot }.setPhase i .ended)

/-- A task that does not begin to save leaves the replica and the store alone. -/
theorem Effects.of_setPhase {x : Refreshes} {event : RefreshEvent} {i : Nat} {phase : RefreshPhase}
    (hcompletes : x.completes event = none) (hlands : x.lands event = none)
    (hphase : ∀ snapshot, phase ≠ .saving snapshot) : Effects x event (x.setPhase i phase) := by
  refine .quiet hcompletes hlands rfl rfl fun j status snapshot h => ?_
  rcases saving_setPhase h with hold | ⟨-, hsaving, -⟩
  · exact hold
  · exact absurd hsaving (hphase snapshot)

/-- An event that finds no task to go on with does nothing. -/
theorem Effects.self {x : Refreshes} {event : RefreshEvent} (hcompletes : x.completes event = none)
    (hlands : x.lands event = none) : Effects x event x :=
  .quiet hcompletes hlands rfl rfl fun _ _ _ h => h

/-- A stretch of exports, if it is the last one exactly where the event completes the task. -/
theorem Effects.of_exportOn {x : Refreshes} {event : RefreshEvent} {i : Nat} {status : BridgeStatus}
    {phase : RefreshPhase} {exported : List ExportedCommand} {listing : List CommandInfo}
    (now : Timestamp) (htask : x.tasks[i]? = some ⟨status, phase⟩) (hlands : x.lands event = none)
    (hcompletes : x.completes event = if listing = [] then some status else none) :
    Effects x event (x.exportOn i status now exported listing) := by
  rcases exportOn_cases x i status now exported listing with
    ⟨hsome, heq⟩ | ⟨hnone, snapshot, hrevision, heq⟩
  · rw [heq]
    rw [if_neg hsome] at hcompletes
    exact .of_setPhase hcompletes hlands fun _ h => nomatch h
  · rw [heq]
    rw [if_pos hnone] at hcompletes
    exact .completed hcompletes hlands ⟨phase, htask⟩ hrevision rfl

theorem effects_handled (x : Refreshes) (status : BridgeStatus) :
    Effects x (.handled status) (x.step (.handled status)) := by
  have htasks : (x.step (.handled status)).tasks = x.tasks ++ [⟨status, .created⟩] := rfl
  refine .quiet rfl rfl rfl rfl fun i s snapshot h => ?_
  rcases Nat.lt_or_ge i x.tasks.length with hi | hi
  · rwa [htasks, List.getElem?_append_left hi] at h
  · -- the new task saves nothing yet
    rw [htasks, List.getElem?_append_right hi] at h
    cases List.mem_singleton.mp (List.mem_of_getElem? h)

theorem effects_started (x : Refreshes) (i : Nat) (now : Timestamp) :
    Effects x (.started i now) (x.step (.started i now)) := by
  unfold step
  dsimp only
  split
  · rename_i status htask
    have hcompletes : x.completes (.started i now)
        = if status.bridgeId = x.manager.bridgeId ∧ status.restoreIncomplete = false ∧
            x.manager.Outdated status ∧ status.commands = [] then some status else none := by
      unfold completes
      simp only [htask]
    split
    · rename_i hforeign
      exact .of_setPhase (hcompletes.trans (if_neg fun h => hforeign h.1)) rfl fun _ h => nomatch h
    rename_i hown
    split
    · rename_i hopen
      refine .of_setPhase (hcompletes.trans (if_neg fun h => ?_)) rfl fun _ h => nomatch h
      rw [h.2.1] at hopen
      cases hopen
    rename_i hclosed
    split
    · rename_i hcurrent
      exact .of_setPhase (hcompletes.trans (if_neg fun h => hcurrent h.2.2.1)) rfl
        fun _ h => nomatch h
    rename_i hnews
    refine .of_exportOn now htask rfl ?_
    rw [hcompletes]
    simp only [not_not.mp hown, Bool.eq_false_iff.mpr hclosed, not_not.mp hnews, true_and]
  · rename_i hother
    refine .self ?_ rfl
    unfold completes
    dsimp only
    split
    · rename_i status htask
      exact absurd htask (hother status)
    · rfl

theorem effects_answered (x : Refreshes) (i : Nat) (result : ExportResult) (now : Timestamp) :
    Effects x (.answered i result now) (x.step (.answered i result now)) := by
  unfold step
  dsimp only
  split
  · rename_i status exported info listing htask
    cases result with
    | raises => exact .of_setPhase rfl rfl fun _ h => nomatch h
    | unknown => exact .of_setPhase rfl rfl fun _ h => nomatch h
    | command command =>
      refine .of_exportOn now htask rfl ?_
      unfold completes
      cases listing with
      | nil => simp only [htask, if_true]
      | cons next rest => simp only [htask, reduceCtorEq, if_false]
  · rename_i hother
    refine .self ?_ rfl
    cases result with
    | raises => rfl
    | unknown => rfl
    | command command =>
      unfold completes
      dsimp only
      split
      · rename_i status exported info htask
        exact absurd htask (hother status exported info [])
      · rfl

theorem effects_saved (x : Refreshes) (i : Nat) : Effects x (.saved i) (x.step (.saved i)) := by
  unfold step
  dsimp only
  split
  · rename_i status snapshot htask
    refine .landed rfl ?_ htask rfl
    unfold lands
    simp only [htask]
  · rename_i hother
    refine .self rfl ?_
    unfold lands
    dsimp only
    split
    · rename_i status snapshot htask
      exact absurd htask (hother status snapshot)
    · rfl

/-- **What an event does.**  One case for each way out of the code between two `await`s. -/
theorem effects_step (x : Refreshes) (event : RefreshEvent) : Effects x event (x.step event) := by
  cases event with
  | handled status => exact effects_handled x status
  | started i now => exact effects_started x i now
  | answered i result now => exact effects_answered x i result now
  | saved i => exact effects_saved x i

/-! ## A task that nothing comes between -/

/-- A task that runs to its end with nothing in between. -/
def uninterrupted (i : Nat) (status : BridgeStatus) (now : Timestamp)
    (answers : Nat → Int → ExportResult) : List RefreshEvent :=
  .started i now ::
    status.commands.zipIdx.map fun p => .answered i (answers p.2 p.1.commandId) now

section Uninterrupted

variable {x : Refreshes} {i : Nat} {status : BridgeStatus} {now : Timestamp}
  {answers : Nat → Int → ExportResult}

variable (now answers) in
/-- Nothing comes of an answer to a task that has ended. -/
theorem foldl_answered_ended (htask : x.tasks[i]? = some ⟨status, .ended⟩)
    (l : List (CommandInfo × Nat)) :
    (l.map fun p => RefreshEvent.answered i (answers p.2 p.1.commandId) now).foldl step x = x := by
  induction l with
  | nil => rfl
  | cons p l ih =>
    rw [List.map_cons, List.foldl_cons]
    have hstep : x.step (.answered i (answers p.2 p.1.commandId) now) = x := by
      unfold step
      simp only [htask]
    rw [hstep]
    exact ih

theorem tasks_setPhase_self {phase phase' : RefreshPhase} (htask : x.tasks[i]? = some ⟨status, phase⟩) :
    (x.setPhase i phase').tasks[i]? = some ⟨status, phase'⟩ := by
  rw [tasks_setPhase, if_pos rfl, htask]
  rfl

/-- The rest of a task, with nothing in between.  Induction on what is left to export. -/
theorem manager_exportOn {phase : RefreshPhase} (htask : x.tasks[i]? = some ⟨status, phase⟩)
    (exported : List ExportedCommand) (listing : List CommandInfo) (k : Nat) :
    (((listing.zipIdx k).map fun p => RefreshEvent.answered i (answers p.2 p.1.commandId) now).foldl
        step (x.exportOn i status now exported listing)).manager
      = match asyncExportAll answers k listing with
        | .ok (some commands) =>
          { x.manager with
            snapshot := some
              ⟨status.bridgeId, status.revision, status.nextCommandId, now, exported ++ commands⟩ }
        | _ => x.manager := by
  induction listing generalizing x exported k phase with
  | nil =>
    unfold asyncExportAll
    simp only [List.append_nil]
    rfl
  | cons info listing ih =>
    rw [List.zipIdx_cons, List.map_cons, List.foldl_cons]
    unfold exportOn asyncExportAll
    have hexporting : (x.setPhase i (.exporting exported (info :: listing))).tasks[i]?
        = some ⟨status, .exporting exported (info :: listing)⟩ := tasks_setPhase_self htask
    have hanswered : ∀ result, (x.setPhase i (.exporting exported (info :: listing))).step
        (.answered i result now) = match result with
          | .raises => (x.setPhase i (.exporting exported (info :: listing))).setPhase i .ended
          | .unknown => (x.setPhase i (.exporting exported (info :: listing))).setPhase i .ended
          | .command command => (x.setPhase i (.exporting exported (info :: listing))).exportOn i
              status now (exported ++ [command]) listing := by
      intro result
      unfold step
      simp only [hexporting]
    rw [hanswered]
    cases answers k info.commandId with
    | raises =>
      dsimp only
      rw [foldl_answered_ended now answers (tasks_setPhase_self hexporting)]
      rfl
    | unknown =>
      dsimp only
      rw [foldl_answered_ended now answers (tasks_setPhase_self hexporting)]
      rfl
    | command command =>
      dsimp only
      rw [ih hexporting]
      rcases asyncExportAll answers (k + 1) listing with e | ⟨_ | commands⟩
      · rfl
      · rfl
      · simp

/-- The first stretch of a task. -/
theorem step_started (htask : x.tasks[i]? = some ⟨status, .created⟩) :
    x.step (.started i now)
      = if status.bridgeId ≠ x.manager.bridgeId then x.setPhase i .ended
        else if status.restoreIncomplete then x.setPhase i .ended
        else if ¬ x.manager.Outdated status then x.setPhase i .ended
        else x.exportOn i status now [] status.commands := by
  unfold step
  simp only [htask]

/-- **A task that nothing comes between is the atomic refresh.** -/
theorem manager_uninterrupted (htask : x.tasks[i]? = some ⟨status, .created⟩) :
    ((uninterrupted i status now answers).foldl step x).manager
      = x.manager.asyncRefresh status now answers := by
  unfold uninterrupted asyncRefresh
  rw [List.foldl_cons, step_started htask]
  have hended := foldl_answered_ended now answers
    (tasks_setPhase_self htask : (x.setPhase i .ended).tasks[i]? = _) status.commands.zipIdx
  split
  · rw [hended]
    rfl
  split
  · rw [hended]
    rfl
  split
  · rw [hended]
    rfl
  rw [manager_exportOn htask]
  rcases asyncExportAll answers 0 status.commands with e | ⟨_ | commands⟩ <;> rfl

end Uninterrupted

/-! ## Runs -/

/-- The revision of the replica changes with what is completed. -/
theorem revision_manager_step (x : Refreshes) (event : RefreshEvent) :
    revision (x.step event).manager.snapshot
      = ((x.completes event).map fun status => (status.revision : WithBot Int)).getD
          (revision x.manager.snapshot) := by
  rcases effects_step x event with ⟨hcompletes, -, hmanager, -, -⟩ |
    ⟨hcompletes, -, -, hrevision, hy⟩ | ⟨hcompletes, -, -, hy⟩
  · rw [hcompletes, hmanager]
    rfl
  · rw [hcompletes, hy, manager_setPhase]
    exact congrArg _ hrevision
  · rw [hcompletes, hy]
    rfl

/-- What is stored changes with what lands. -/
theorem revision_stored_step {x : Refreshes} (hlabelled : x.Labelled) (event : RefreshEvent) :
    revision (x.step event).stored
      = ((x.lands event).map fun status => (status.revision : WithBot Int)).getD
          (revision x.stored) := by
  rcases effects_step x event with ⟨-, hlands, -, hstored, -⟩ | ⟨-, hlands, -, -, hy⟩ |
    ⟨-, hlands, htask, hy⟩
  · rw [hlands, hstored]
    rfl
  · rw [hlands, hy]
    rfl
  · rw [hlands, hy, stored_setPhase]
    exact congrArg _ (hlabelled _ _ _ htask)

/-- **Every event keeps the label of what is being saved.** -/
theorem Labelled.step {x : Refreshes} (hlabelled : x.Labelled) (event : RefreshEvent) :
    (x.step event).Labelled := by
  intro i status snapshot h
  rcases effects_step x event with ⟨-, -, -, -, htasks⟩ | ⟨-, -, htask, hrevision, hy⟩ |
    ⟨-, -, -, hy⟩
  · exact hlabelled _ _ _ (htasks i status snapshot h)
  · rw [hy] at h
    rcases saving_setPhase h with hold | ⟨rfl, hphase, old, hold⟩
    · exact hlabelled _ _ _ hold
    · -- it is the task that has just been completed
      obtain ⟨phase, htask⟩ := htask
      obtain rfl := RefreshPhase.saving.inj hphase
      obtain ⟨rfl, -⟩ := RefreshTask.mk.inj (Option.some.inj (htask.symm.trans hold))
      exact hrevision
  · rw [hy] at h
    rcases saving_setPhase h with hold | ⟨-, hphase, -⟩
    · exact hlabelled _ _ _ hold
    · cases hphase

/-- Of the statuses that the events bring to some end, none is of an older revision than one before
    it, or than the replica that was loaded. -/
def InOrder (x : Refreshes) (events : List RefreshEvent)
    (ends : Refreshes → RefreshEvent → Option BridgeStatus) : Prop :=
  ∀ k event status, events[k]? = some event → ends (x.after events k) event = some status →
    revision x.manager.snapshot ≤ status.revision ∧
    ∀ j < k, ∀ event' status', events[j]? = some event' →
      ends (x.after events j) event' = some status' → status'.revision ≤ status.revision

/-- A revision that changes with what is brought to an end, and only then. -/
theorem inOrder_iff {x : Refreshes} {events : List RefreshEvent} (held : Refreshes → WithBot Int)
    {ends : Refreshes → RefreshEvent → Option BridgeStatus}
    (hheld : held x = revision x.manager.snapshot)
    (hstep : ∀ k event, events[k]? = some event → held (x.after events (k + 1))
      = ((ends (x.after events k) event).map fun status => (status.revision : WithBot Int)).getD
          (held (x.after events k))) :
    (∀ k < events.length, held (x.after events k) ≤ held (x.after events (k + 1))) ↔
      x.InOrder events ends := by
  have hwritten : ∀ k < events.length, held (x.after events (k + 1))
      = ((events[k]?).bind fun event => (ends (x.after events k) event).map fun status =>
          (status.revision : WithBot Int)).getD (held (x.after events k)) := by
    intro k hk
    rw [List.getElem?_eq_getElem hk]
    exact hstep k _ (List.getElem?_eq_getElem hk)
  rw [Runs.never_back_iff hwritten]
  constructor
  · intro h k event status hevent hends
    have hk : k < events.length := (List.getElem?_eq_some_iff.mp hevent).1
    obtain ⟨hfirst, hearlier⟩ := h k hk status.revision (by rw [hevent]; simp [hends])
    refine ⟨hheld ▸ hfirst, fun j hj event' status' hevent' hends' => ?_⟩
    exact WithBot.coe_le_coe.mp (hearlier j hj status'.revision (by rw [hevent']; simp [hends']))
  · intro h k hk a ha
    obtain ⟨event, hevent, hmap⟩ := Option.bind_eq_some_iff.mp ha
    obtain ⟨status, hends, rfl⟩ := Option.map_eq_some_iff.mp hmap
    obtain ⟨hfirst, hearlier⟩ := h k event status hevent hends
    refine ⟨?_, fun j hj b hb => ?_⟩
    · rw [show held (x.after events 0) = held x from rfl, hheld]
      exact hfirst
    · obtain ⟨event', hevent', hmap'⟩ := Option.bind_eq_some_iff.mp hb
      obtain ⟨status', hends', rfl⟩ := Option.map_eq_some_iff.mp hmap'
      exact WithBot.coe_le_coe.mpr (hearlier j hj event' status' hevent' hends')

/-- **The replica never goes back exactly if tasks finish their exports, and their saves land, in the
    order of the revisions.**  For any replica that was loaded, any statuses and any interleaving of
    the tasks that they start: each event leaves a replica in memory, and one in the store, of at least
    the revision before it, exactly if no task finishes its last export after a task of a newer
    revision has finished its own, no save lands after the save of a newer revision, and neither is
    older than what was loaded. -/
theorem replica_never_goes_back_iff (manager : SnapshotManager) (events : List RefreshEvent) :
    let x := loaded manager
    (∀ k < events.length,
      revision (x.after events k).manager.snapshot
        ≤ revision (x.after events (k + 1)).manager.snapshot ∧
      revision (x.after events k).stored ≤ revision (x.after events (k + 1)).stored) ↔
    x.InOrder events completes ∧ x.InOrder events lands := by
  intro x
  have hlabelled : ∀ k, (x.after events k).Labelled :=
    Runs.inv (fun i status snapshot h => nomatch h) fun y event _ hy => hy.step event
  have hmemory : (∀ k < events.length, revision (x.after events k).manager.snapshot
      ≤ revision (x.after events (k + 1)).manager.snapshot) ↔ x.InOrder events completes := by
    refine inOrder_iff (fun y => revision y.manager.snapshot) rfl fun k event hevent => ?_
    rw [after_succ hevent]
    exact revision_manager_step _ event
  have hstore : (∀ k < events.length, revision (x.after events k).stored
      ≤ revision (x.after events (k + 1)).stored) ↔ x.InOrder events lands := by
    refine inOrder_iff (fun y => revision y.stored) rfl fun k event hevent => ?_
    rw [after_succ hevent]
    exact revision_stored_step (hlabelled k) event
  rw [← hmemory, ← hstore]
  constructor
  · exact fun h => ⟨fun k hk => (h k hk).1, fun k hk => (h k hk).2⟩
  · exact fun h k hk => ⟨h.1 k hk, h.2 k hk⟩

/-! ## A store that writes in turn -/

/-- The store writes what it is handed in the order in which it is handed it. -/
def WritesInTurn (x : Refreshes) (events : List RefreshEvent) : Prop :=
  ∀ k event status, events[k]? = some event → (x.after events k).lands event = some status →
    ∃ handed < k, (∃ event', events[handed]? = some event' ∧
        (x.after events handed).completes event' = some status) ∧
      ∀ j < k, ∀ event' status', events[j]? = some event' →
        (x.after events j).lands event' = some status' →
        ∃ earlier ≤ handed, ∃ event'', events[earlier]? = some event'' ∧
          (x.after events earlier).completes event'' = some status'

/-- With such a store the order of the exports is all there is to ask for. -/
theorem InOrder.lands {x : Refreshes} {events : List RefreshEvent}
    (hturn : x.WritesInTurn events) (h : x.InOrder events completes) : x.InOrder events lands := by
  intro k event status hevent hlands
  obtain ⟨handed, -, ⟨event', hevent', hcompletes⟩, hbefore⟩ := hturn k event status hevent hlands
  obtain ⟨hfirst, hearlier⟩ := h handed event' status hevent' hcompletes
  refine ⟨hfirst, fun j hj event'' status' hevent'' hlands' => ?_⟩
  obtain ⟨earlier, hle, e, he, hcompletes'⟩ := hbefore j hj event'' status' hevent'' hlands'
  rcases Nat.lt_or_eq_of_le hle with hlt | rfl
  · exact hearlier earlier hlt e status' he hcompletes'
  · -- the two saves are of one task
    obtain rfl := Option.some.inj (he.symm.trans hevent')
    rw [Option.some.inj (hcompletes'.symm.trans hcompletes)]

/-! ## An answer that is late -/

/-- The status of a bridge with one command. -/
def renamedAt (revision : Int) (name : Str) : BridgeStatus where
  bridgeId := BridgeId.zero.hex
  revision := revision
  nextCommandId := 2
  restoreIncomplete := false
  readOnly := false
  fault := []
  lastResult := []
  count := 1
  maxCommands := 16
  maxPulses := 256
  usedBytes := 0
  capacityBytes := 0
  commands := [⟨1, name, 3⟩]

/-- What is exported of it. -/
def exportedAs (name : Str) : ExportResult :=
  .command ⟨1, BridgeId.zero.hex, 1, name, 10000, 5, 433920000, 0, [350, -1050, 350]⟩

/-- The command is renamed while it is being exported.  The task of the second status gets its answer
    first, that of the first status gets the one it has waited for all along. -/
def lateAnswer : List RefreshEvent :=
  [.handled (renamedAt 1 (str "on")), .started 0 0,
    .handled (renamedAt 2 (str "off")), .started 1 1, .answered 1 (exportedAs (str "off")) 2, .saved 1,
    .answered 0 (exportedAs (str "on")) 3, .saved 0]

/-- **The late answer takes the replica back**, in memory and then in the store. -/
theorem late_answer_goes_back :
    let x := loaded ⟨BridgeId.zero.hex, none⟩
    (revision (x.after lateAnswer 6).manager.snapshot = (2 : Int) ∧
      revision (x.after lateAnswer 7).manager.snapshot = (1 : Int)) ∧
    (revision (x.after lateAnswer 7).stored = (2 : Int) ∧
      revision (x.after lateAnswer 8).stored = (1 : Int)) ∧
    ¬ ∀ k < lateAnswer.length,
      revision (x.after lateAnswer k).manager.snapshot
        ≤ revision (x.after lateAnswer (k + 1)).manager.snapshot ∧
      revision (x.after lateAnswer k).stored ≤ revision (x.after lateAnswer (k + 1)).stored := by
  intro x
  have hbefore : revision (x.after lateAnswer 6).manager.snapshot = (2 : Int) := by decide +kernel
  have hafter : revision (x.after lateAnswer 7).manager.snapshot = (1 : Int) := by decide +kernel
  refine ⟨⟨hbefore, hafter⟩, ⟨by decide +kernel, by decide +kernel⟩, fun hall => ?_⟩
  have hle := (hall 6 (by decide)).1
  rw [hbefore, hafter, WithBot.coe_le_coe] at hle
  omega

end Refreshes

end RfCloner
