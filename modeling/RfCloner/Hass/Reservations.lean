/-
  Claims on names (`reconcile.py`, `config_flow.py`).

  A learn flow claims its name before it arms the device, for a minute, so that the command does not
  appear before the flow has placed it.  But a listing that is trusted ends the claims on the names in
  it before the platforms look: the claim is spent by the very listing that it is there to hide.  A
  command that is new to Home Assistant stays out of sight exactly if no such listing arrives while
  the flow holds its name (`hidden_while_held_iff`), and the learn itself asks for one before it hands
  its outcome to the flow.
-/
import RfCloner.Hass.Flows
import RfCloner.Lib.Runs
import Mathlib.Algebra.Order.Ring.Rat

namespace RfCloner

/-! ## What a listing does to the claims -/

/-- The status is of the entry's bridge, and no restore is open. -/
def BridgeStatus.TrustedBy (uniqueId : Option Str) (status : BridgeStatus) : Prop :=
  (∀ expected, uniqueId = some expected → status.bridgeId = expected) ∧
    status.restoreIncomplete = false

/-- The command is in the listing. -/
def BridgeStatus.Lists (status : BridgeStatus) (id : Int) : Prop :=
  id ∈ status.commands.map CommandInfo.commandId

namespace CommandReconciler

variable {ρ : Type} {R : EntityRegistry ρ} {r : CommandReconciler ρ} {status : BridgeStatus}

/-- **A trusted listing ends the claims on the names in it.** -/
theorem asyncReconcile_of_trusted (h : status.TrustedBy r.entry.uniqueId) :
    (r.asyncReconcile R status).identityMismatch = false ∧
    (r.asyncReconcile R status).reserved
      = r.reserved.filter fun name => name ∉ status.commands.map CommandInfo.name := by
  obtain ⟨hown, hclosed⟩ := h
  have hany : (r.entry.uniqueId.any fun expected => status.bridgeId != expected) = false := by
    cases huid : r.entry.uniqueId with
    | none => rfl
    | some expected => simp [hown expected huid]
  unfold asyncReconcile asyncPurgeRemovedCommands asyncSnapshotTargets
  rw [hany, hclosed]
  simp only [Bool.false_eq_true, if_false]
  split <;> exact ⟨rfl, rfl⟩

/-- A listing that is not trusted leaves the claims, and nothing is shown. -/
theorem asyncReconcile_of_not_trusted (h : ¬ status.TrustedBy r.entry.uniqueId) :
    (r.asyncReconcile R status).identityMismatch = true ∨ status.restoreIncomplete = true := by
  unfold asyncReconcile
  split
  · exact Or.inl rfl
  · rename_i hown
    by_contra hnot
    rw [not_or, Bool.not_eq_true, Bool.not_eq_true] at hnot
    refine h ⟨fun expected huid => ?_, hnot.2⟩
    rw [huid] at hown
    simpa using hown

@[simp] theorem uniqueId_asyncReconcile :
    (r.asyncReconcile R status).entry.uniqueId = r.entry.uniqueId := by
  unfold asyncReconcile asyncPurgeRemovedCommands asyncSnapshotTargets
  split
  · rfl
  dsimp only
  split
  · rfl
  · split <;> exact (entryId_prunedTo _ _ _).2.1

end CommandReconciler

/-! ## The claims, and what the platforms see -/

/-- `RESERVATION_SECONDS`. -/
def reservationSeconds : ℚ := 60

/-- The reconciler, when the claims it holds lapse, the coordinator's last data, and
    `time.monotonic`. -/
structure Reservations (ρ : Type) where
  reconciler : CommandReconciler ρ
  /-- The times in `_reserved`, for the names that are in it. -/
  lapsesAt : Str → ℚ
  data : Option BridgeStatus
  now : ℚ

namespace Reservations

variable {ρ : Type}

/-- `async_reserve`. -/
def asyncReserve (x : Reservations ρ) (name : Str) : Reservations ρ :=
  { x with
    reconciler := { x.reconciler with reserved := x.reconciler.reserved.insert name }
    lapsesAt := Function.update x.lapsesAt name (x.now + reservationSeconds) }

/-- `async_release`. -/
def asyncRelease (x : Reservations ρ) (name : Str) : Reservations ρ :=
  { x with
    reconciler :=
      { x.reconciler with reserved := x.reconciler.reserved.filter fun claimed => claimed ≠ name } }

/-- `_async_is_reserved`: a claim that has lapsed is dropped when it is come upon. -/
def asyncIsReserved (x : Reservations ρ) (name : Str) : Bool × Reservations ρ :=
  if name ∈ x.reconciler.reserved then
    if x.now ≥ x.lapsesAt name then (false, x.asyncRelease name) else (true, x)
  else (false, x)

/-- One round of the comprehension in `async_visible_commands`. -/
def look (seen : List Int × Reservations ρ) (command : CommandInfo) : List Int × Reservations ρ :=
  match seen.2.asyncIsReserved command.name with
  | (true, x) => (seen.1, x)
  | (false, x) => (seen.1 ++ [command.commandId], x)

/-- `async_visible_commands`, on what the coordinator holds. -/
def asyncVisibleCommands (x : Reservations ρ) : List Int × Reservations ρ :=
  match x.data with
  | none => ([], x)
  | some status =>
    if x.reconciler.identityMismatch || status.restoreIncomplete then ([], x)
    else status.commands.foldl look ([], x)

/-- The name is claimed, and the claim has not lapsed. -/
def Claimed (x : Reservations ρ) (name : Str) : Prop :=
  name ∈ x.reconciler.reserved ∧ x.now < x.lapsesAt name

section Look

variable {x y : Reservations ρ}

/-- The claims that stand are the same, and so is everything else. -/
structure SameClaims (x y : Reservations ρ) : Prop where
  claimed : ∀ name, y.Claimed name ↔ x.Claimed name
  entry : y.reconciler.entry = x.reconciler.entry
  identityMismatch : y.reconciler.identityMismatch = x.reconciler.identityMismatch
  data : y.data = x.data
  now : y.now = x.now

theorem SameClaims.refl (x : Reservations ρ) : SameClaims x x :=
  ⟨fun _ => Iff.rfl, rfl, rfl, rfl, rfl⟩

theorem SameClaims.trans {z : Reservations ρ} (h : SameClaims x y) (h' : SameClaims y z) :
    SameClaims x z :=
  ⟨fun name => (h'.claimed name).trans (h.claimed name), h'.entry.trans h.entry,
    h'.identityMismatch.trans h.identityMismatch, h'.data.trans h.data, h'.now.trans h.now⟩

/-- Asking whether a name is claimed drops no claim that stands. -/
theorem asyncIsReserved_spec (x : Reservations ρ) (name : Str) :
    ((x.asyncIsReserved name).1 = true ↔ x.Claimed name) ∧
      SameClaims x (x.asyncIsReserved name).2 := by
  unfold asyncIsReserved
  split
  · rename_i hmem
    split
    · rename_i hlapsed
      refine ⟨iff_of_false Bool.false_ne_true fun h => absurd h.2 (not_lt.mpr hlapsed), ?_, rfl, rfl,
        rfl, rfl⟩
      intro other
      unfold Claimed asyncRelease
      simp only [List.mem_filter, decide_eq_true_eq]
      constructor
      · exact fun h => ⟨h.1.1, h.2⟩
      · refine fun h => ⟨⟨h.1, ?_⟩, h.2⟩
        rintro rfl
        exact absurd h.2 (not_lt.mpr hlapsed)
    · rename_i hstands
      exact ⟨iff_of_true rfl ⟨hmem, not_le.mp hstands⟩, SameClaims.refl x⟩
  · rename_i hmem
    exact ⟨iff_of_false Bool.false_ne_true fun h => absurd h.1 hmem, SameClaims.refl x⟩

/-- What the comprehension collects.  Induction on the listing; the claims that stand are its
    invariant. -/
theorem foldl_look (commands : List CommandInfo) (seen : List Int) (y : Reservations ρ) (id : Int) :
    (id ∈ (commands.foldl look (seen, y)).1 ↔
      id ∈ seen ∨ ∃ command ∈ commands, command.commandId = id ∧ ¬ y.Claimed command.name) ∧
    SameClaims y (commands.foldl look (seen, y)).2 := by
  induction commands generalizing seen y with
  | nil => simpa using SameClaims.refl y
  | cons command commands ih =>
    rw [List.foldl_cons]
    obtain ⟨hspec, hsame⟩ := asyncIsReserved_spec y command.name
    have hrest : ∀ seen', (id ∈ (commands.foldl look (seen', (y.asyncIsReserved command.name).2)).1 ↔
          id ∈ seen' ∨ ∃ c ∈ commands, c.commandId = id ∧ ¬ y.Claimed c.name) ∧
        SameClaims y (commands.foldl look (seen', (y.asyncIsReserved command.name).2)).2 := by
      intro seen'
      obtain ⟨hmem, hsame'⟩ := ih seen' (y.asyncIsReserved command.name).2
      refine ⟨hmem.trans (or_congr_right ?_), hsame.trans hsame'⟩
      simp only [hsame.claimed]
    cases hasked : (y.asyncIsReserved command.name).1 with
    | true =>
      have hlook : look (seen, y) command = (seen, (y.asyncIsReserved command.name).2) := by
        unfold look
        rw [show y.asyncIsReserved command.name = (true, (y.asyncIsReserved command.name).2) from
          Prod.ext hasked rfl]
      rw [hlook]
      refine ⟨(hrest seen).1.trans (or_congr_right ?_), (hrest seen).2⟩
      have hclaimed := hspec.mp hasked
      constructor
      · rintro ⟨c, hc, h⟩
        exact ⟨c, List.mem_cons_of_mem _ hc, h⟩
      · rintro ⟨c, hc, hid, hnot⟩
        rcases List.mem_cons.mp hc with rfl | hc
        · exact absurd hclaimed hnot
        · exact ⟨c, hc, hid, hnot⟩
    | false =>
      have hlook : look (seen, y) command
          = (seen ++ [command.commandId], (y.asyncIsReserved command.name).2) := by
        unfold look
        rw [show y.asyncIsReserved command.name = (false, (y.asyncIsReserved command.name).2) from
          Prod.ext hasked rfl]
      rw [hlook]
      refine ⟨(hrest _).1.trans ?_, (hrest _).2⟩
      have hnot : ¬ y.Claimed command.name := fun h => by
        rw [hspec.mpr h] at hasked
        cases hasked
      rw [List.mem_append, List.mem_singleton, or_assoc]
      refine or_congr_right ⟨?_, ?_⟩
      · rintro (rfl | ⟨c, hc, h⟩)
        · exact ⟨command, List.mem_cons_self, rfl, hnot⟩
        · exact ⟨c, List.mem_cons_of_mem _ hc, h⟩
      · rintro ⟨c, hc, hid, h⟩
        rcases List.mem_cons.mp hc with rfl | hc
        · exact Or.inl hid.symm
        · exact Or.inr ⟨c, hc, hid, h⟩

/-- **What is visible**: the commands of a trusted listing whose names nobody claims. -/
theorem mem_asyncVisibleCommands {id : Int} : id ∈ x.asyncVisibleCommands.1 ↔
    ∃ status, x.data = some status ∧ x.reconciler.identityMismatch = false ∧
      status.restoreIncomplete = false ∧
      ∃ command ∈ status.commands, command.commandId = id ∧ ¬ x.Claimed command.name := by
  unfold asyncVisibleCommands
  cases x.data with
  | none => simp
  | some status =>
    dsimp only
    split
    · rename_i huntrusted
      rw [Bool.or_eq_true] at huntrusted
      constructor
      · exact fun h => absurd h List.not_mem_nil
      · rintro ⟨_, hdata, hmatch, hclosed, -⟩
        obtain rfl := Option.some.inj hdata
        rw [hmatch, hclosed] at huntrusted
        simp at huntrusted
    · rename_i htrusted
      rw [Bool.or_eq_true, not_or, Bool.not_eq_true, Bool.not_eq_true] at htrusted
      rw [(foldl_look status.commands [] x id).1]
      simp [htrusted]

/-- Looking changes nothing that is seen. -/
theorem sameClaims_asyncVisibleCommands (x : Reservations ρ) :
    SameClaims x x.asyncVisibleCommands.2 := by
  unfold asyncVisibleCommands
  cases x.data with
  | none => exact SameClaims.refl x
  | some status =>
    dsimp only
    split
    · exact SameClaims.refl x
    · exact (foldl_look status.commands [] x 0).2

end Look

end Reservations

/-! ## What happens while a flow learns -/

inductive ReservationEvent (ρ : Type) where
  /-- The coordinator has read a status, and calls its listeners. -/
  | refreshed (status : BridgeStatus)
  /-- A refresh fails, and the listeners are called with what the coordinator still holds. -/
  | failed
  /-- A platform asks for the visible commands. -/
  | looked
  | passed (now : ℚ)
  /-- Another flow claims a name. -/
  | reserved (name : Str)
  /-- Another flow comes to its end. -/
  | flow (step : FlowStep)
  | update (subentries : List ConfigSubentry) (touch : ρ → ρ) (acceptsUserRemovals : Bool)
  /-- The flow at hand goes on to `async_step_learned`: it writes the options or releases the name. -/
  | learned (result : Except Unit LearnOutcome)

namespace Reservations

variable {ρ : Type} (R : EntityRegistry ρ) (steps : LearnCommandSteps)

/-- What `_async_handle_status` does about the commands. -/
def handleStatus (x : Reservations ρ) : Reservations ρ :=
  match x.data with
  | none => x
  | some current => { x with reconciler := x.reconciler.asyncReconcile R current }

/-- One event, while a flow learns with `steps`. -/
def step (x : Reservations ρ) : ReservationEvent ρ → Reservations ρ
  | .refreshed status => handleStatus R { x with data := some status }
  | .failed => handleStatus R x
  | .looked => x.asyncVisibleCommands.2
  -- the clock does not go back
  | .passed now => { x with now := max x.now now }
  | .reserved name => x.asyncReserve name
  | .flow step => { x with reconciler := step.apply x.data x.reconciler }
  | .update subentries touch acceptsUserRemovals =>
    { x with
      reconciler := (x.reconciler.changeTargets subentries touch).asyncHandleEntryUpdate x.data
        acceptsUserRemovals }
  | .learned result =>
    { x with reconciler := (FlowStep.learned steps result).apply x.data x.reconciler }

/-- The state after the first `k` events. -/
abbrev after (x : Reservations ρ) (events : List (ReservationEvent ρ)) (k : Nat) : Reservations ρ :=
  Runs.moment (step R steps) x events k

/-- After `k` events the flow has not come to its end, and its claim has not lapsed. -/
def Holding (x : Reservations ρ) (events : List (ReservationEvent ρ)) (lapse : ℚ) (k : Nat) : Prop :=
  (∀ result, .learned result ∉ events.take k) ∧ (x.after R steps events k).now < lapse

variable {R steps} {x : Reservations ρ} {events : List (ReservationEvent ρ)} {lapse : ℚ} {k : Nat}
  {id : Int} {event : ReservationEvent ρ}

theorem after_succ (h : events[k]? = some event) :
    x.after R steps events (k + 1) = (x.after R steps events k).step R steps event :=
  Runs.moment_succ h

theorem handleStatus_of_none (h : x.data = none) : x.handleStatus R = x := by
  unfold handleStatus
  rw [h]

theorem handleStatus_of_some {status : BridgeStatus} (h : x.data = some status) :
    x.handleStatus R = { x with reconciler := x.reconciler.asyncReconcile R status } := by
  unfold handleStatus
  rw [h]

theorem now_handleStatus (x : Reservations ρ) : (x.handleStatus R).now = x.now := by
  unfold handleStatus
  split <;> rfl

theorem uniqueId_handleStatus (x : Reservations ρ) :
    (x.handleStatus R).reconciler.entry.uniqueId = x.reconciler.entry.uniqueId := by
  unfold handleStatus
  split
  · rfl
  · exact CommandReconciler.uniqueId_asyncReconcile

theorem now_le_step (x : Reservations ρ) (event : ReservationEvent ρ) :
    x.now ≤ (x.step R steps event).now := by
  cases event with
  | passed now => exact le_max_left _ _
  | failed => exact (now_handleStatus x).ge
  | looked => exact (sameClaims_asyncVisibleCommands x).now.ge
  | _ => exact le_rfl

/-- A flow that holds its name has held it all along. -/
theorem Holding.before (h : Holding R steps x events lapse k) {j : Nat} (hj : j ≤ k) :
    Holding R steps x events lapse j := by
  refine ⟨fun result hmem => h.1 result ((List.take_subset_take_left events hj) hmem), ?_⟩
  exact lt_of_le_of_lt (Runs.le_of_le (f := now) (fun y event _ => now_le_step y event) hj) h.2

/-- No event changes the identity of the entry. -/
theorem uniqueId_step (x : Reservations ρ) (event : ReservationEvent ρ) :
    (x.step R steps event).reconciler.entry.uniqueId = x.reconciler.entry.uniqueId := by
  cases event with
  | refreshed status => exact uniqueId_handleStatus _
  | failed => exact uniqueId_handleStatus x
  | looked => exact congrArg ConfigEntry.uniqueId (sameClaims_asyncVisibleCommands x).entry
  | passed now => rfl
  | reserved name => rfl
  | flow step => exact (step.apply_frame x.data x.reconciler).2.1
  | update subentries touch acceptsUserRemovals =>
    cases acceptsUserRemovals with
    | false => rfl
    | true => exact (CommandReconciler.entryId_prunedTo _ _ _).2.1
  | learned result => exact ((FlowStep.learned steps result).apply_frame x.data x.reconciler).2.1

theorem uniqueId_after (x : Reservations ρ) (events : List (ReservationEvent ρ)) (k : Nat) :
    (x.after R steps events k).reconciler.entry.uniqueId = x.reconciler.entry.uniqueId := by
  let I (y : Reservations ρ) : Prop := y.reconciler.entry.uniqueId = x.reconciler.entry.uniqueId
  have hx : I x := rfl
  exact Runs.inv hx (fun y event _ hy => (uniqueId_step y event).trans hy) k

/-! ## Out of sight -/

/-- If the coordinator's data lists the command, then it is not to be trusted, and the reconciler
    knows. -/
def OutOfSight (uniqueId : Option Str) (id : Int) (x : Reservations ρ) : Prop :=
  ∀ status, x.data = some status → status.Lists id →
    ¬ status.TrustedBy uniqueId ∧
      (x.reconciler.identityMismatch = true ∨ status.restoreIncomplete = true)

theorem OutOfSight.not_mem {uniqueId : Option Str} (h : OutOfSight uniqueId id x) :
    id ∉ x.asyncVisibleCommands.1 := by
  intro hvisible
  obtain ⟨status, hdata, hmatch, hclosed, command, hcommand, rfl, -⟩ :=
    mem_asyncVisibleCommands.mp hvisible
  obtain ⟨-, huntrusted⟩ := h status hdata (List.mem_map_of_mem hcommand)
  rw [hmatch, hclosed] at huntrusted
  simp at huntrusted

/-- **A command stays out of sight** unless a trusted listing of it is delivered. -/
theorem OutOfSight.step {uniqueId : Option Str} (h : OutOfSight uniqueId id x)
    (huid : x.reconciler.entry.uniqueId = uniqueId)
    (hevent : ∀ status, event = .refreshed status → status.TrustedBy uniqueId → ¬ status.Lists id) :
    OutOfSight uniqueId id (x.step R steps event) := by
  cases event with
  | refreshed status =>
    intro status' hdata hlists
    obtain rfl := Option.some.inj hdata
    have hnot : ¬ status.TrustedBy uniqueId := fun htrusted => hevent status rfl htrusted hlists
    exact ⟨hnot, CommandReconciler.asyncReconcile_of_not_trusted (huid ▸ hnot)⟩
  | failed =>
    show OutOfSight uniqueId id (x.handleStatus R)
    cases hheld : x.data with
    | none =>
      rw [handleStatus_of_none hheld]
      exact h
    | some status =>
      -- what was not to be trusted when it was read is not now
      rw [handleStatus_of_some hheld]
      intro status' hdata hlists
      obtain rfl := Option.some.inj (hheld.symm.trans hdata)
      have hnot := (h status hheld hlists).1
      exact ⟨hnot, CommandReconciler.asyncReconcile_of_not_trusted (huid ▸ hnot)⟩
  | looked =>
    intro status hdata hlists
    have hsame := sameClaims_asyncVisibleCommands x
    have hbefore := h status (hsame.data.symm.trans hdata) hlists
    rwa [← hsame.identityMismatch] at hbefore
  | passed now => exact h
  | reserved name => exact h
  | flow step =>
    intro status hdata hlists
    have hbefore := h status hdata hlists
    rwa [← (step.apply_frame x.data x.reconciler).2.2.2.2] at hbefore
  | update subentries touch acceptsUserRemovals =>
    cases acceptsUserRemovals with
    | false => exact h
    | true => exact h
  | learned result =>
    intro status hdata hlists
    have hbefore := h status hdata hlists
    rwa [← ((FlowStep.learned steps result).apply_frame x.data x.reconciler).2.2.2.2] at hbefore

/-- **What a trusted listing lists is visible**, whoever claims its name. -/
theorem mem_refreshed {status : BridgeStatus}
    (htrusted : status.TrustedBy x.reconciler.entry.uniqueId) (hlists : status.Lists id) :
    id ∈ (x.step R steps (.refreshed status)).asyncVisibleCommands.1 := by
  obtain ⟨hmatch, hreserved⟩ := CommandReconciler.asyncReconcile_of_trusted (R := R) htrusted
  obtain ⟨command, hcommand, hid⟩ := List.mem_map.mp hlists
  refine mem_asyncVisibleCommands.mpr ⟨status, rfl, hmatch, htrusted.2, command, hcommand, hid, ?_⟩
  rintro ⟨hclaimed, -⟩
  change command.name ∈ (x.reconciler.asyncReconcile R status).reserved at hclaimed
  rw [hreserved, List.mem_filter, decide_eq_true_eq] at hclaimed
  exact hclaimed.2 (List.mem_map_of_mem hcommand)

/-- **A command that is new to Home Assistant stays out of sight while a flow holds its name, exactly
    if no trusted listing of it arrives.**  For any state in which the coordinator's data does not
    list the command, and any refreshes, failures, other flows and changes of the entry: from the
    claim on, for as long as the flow has not come to its end and its claim has not lapsed, the
    command is not visible, exactly if in that time no status of the entry's bridge without an open
    restore lists it. -/
theorem hidden_while_held_iff (R : EntityRegistry ρ) (steps : LearnCommandSteps) (x : Reservations ρ)
    (events : List (ReservationEvent ρ)) (id : Int)
    (hnew : ∀ status, x.data = some status → ¬ status.Lists id) :
    let start := x.asyncReserve steps.name
    let lapse := x.now + reservationSeconds
    (∀ k ≤ events.length, Holding R steps start events lapse k →
      id ∉ (start.after R steps events k).asyncVisibleCommands.1) ↔
    ∀ k status, events[k]? = some (.refreshed status) → Holding R steps start events lapse k →
      status.TrustedBy x.reconciler.entry.uniqueId → ¬ status.Lists id := by
  intro start lapse
  have huid : ∀ k, (start.after R steps events k).reconciler.entry.uniqueId
      = x.reconciler.entry.uniqueId := fun k => uniqueId_after start events k
  constructor
  · intro hall k status hevent hholding htrusted hlists
    have hk : k < events.length := (List.getElem?_eq_some_iff.mp hevent).1
    -- the flow still holds its name when the listeners have been called
    have hafter : Holding R steps start events lapse (k + 1) := by
      refine ⟨fun result hmem => ?_, ?_⟩
      · rw [List.take_add_one, hevent, List.mem_append] at hmem
        rcases hmem with hmem | hmem
        · exact hholding.1 result hmem
        · cases List.mem_singleton.mp hmem
      · rw [after_succ hevent]
        exact hholding.2
    refine hall (k + 1) hk hafter ?_
    rw [after_succ hevent]
    exact mem_refreshed (by rwa [huid k]) hlists
  · intro hnone k hk hholding
    have hout : ∀ j ≤ k, OutOfSight x.reconciler.entry.uniqueId id
        (start.after R steps events j) := by
      intro j
      induction j with
      | zero => exact fun _ status hdata hlists => absurd hlists (hnew status hdata)
      | succ j ih =>
        intro hj
        have hevent := List.getElem?_eq_getElem (show j < events.length by omega)
        rw [after_succ hevent]
        refine (ih (by omega)).step (huid j) fun status heq => ?_
        exact hnone j status (hevent.trans (congrArg some heq)) (hholding.before (by omega))
    exact (hout k le_rfl).not_mem

/-! ## The refresh that a learn asks for -/

/-- A status of a bridge that lists some commands. -/
def statusListing (revision : Int) (commands : List CommandInfo) : BridgeStatus where
  bridgeId := BridgeId.zero.hex
  revision := revision
  nextCommandId := 2
  restoreIncomplete := false
  readOnly := false
  fault := []
  lastResult := []
  count := commands.length
  maxCommands := 16
  maxPulses := 256
  usedBytes := 0
  capacityBytes := 0
  commands := commands

/-- Home Assistant, with an entry of the bridge that has nothing in it, when nothing is learned yet. -/
def nothingLearned : Reservations { l : List RegistryEntry // (l.map RegistryEntry.entityId).Nodup } where
  reconciler := .new ⟨str "e", some BridgeId.zero.hex, [], []⟩ ⟨[], List.nodup_nil⟩
  lapsesAt _ := 0
  data := some (statusListing 0 [])
  now := 0

/-- A command is to be learned that is assigned to nothing. -/
def learnFan : LearnCommandSteps := ⟨str "fan", none, none⟩

/-- `async_learn` ends: the command is captured, it asks for a refresh, and the outcome goes to the
    flow. -/
def learnedFan :
    List (ReservationEvent { l : List RegistryEntry // (l.map RegistryEntry.entityId).Nodup }) :=
  [.refreshed (statusListing 1 [⟨1, str "fan", 3⟩]),
    .learned (.ok ⟨true, some 1, str "fan", str "stored"⟩)]

/-- **The refresh before the outcome shows the command**, while the flow holds its name and has
    recorded nothing. -/
theorem own_refresh_shows :
    let start := nothingLearned.asyncReserve learnFan.name
    let state := start.after EntityRegistry.listed learnFan learnedFan
    let lapse := nothingLearned.now + reservationSeconds
    let holding := Holding EntityRegistry.listed learnFan start learnedFan lapse
    (holding 1 ∧ 1 ∈ (state 1).asyncVisibleCommands.1 ∧ metaFor (state 1).reconciler.entry 1 = none) ∧
    (metaFor (state 2).reconciler.entry 1).isSome ∧
    ¬ ∀ k ≤ learnedFan.length, holding k → 1 ∉ (state k).asyncVisibleCommands.1 := by
  intro start state lapse holding
  have hholding : holding 1 := by
    refine ⟨fun result hmem => ?_, ?_⟩
    · cases List.mem_singleton.mp hmem
    · show (0 : ℚ) < 0 + 60
      norm_num
  have hvisible : 1 ∈ (state 1).asyncVisibleCommands.1 := by decide +kernel
  refine ⟨⟨hholding, hvisible, by decide +kernel⟩, by decide +kernel, fun hall => ?_⟩
  exact hall 1 (by decide) hholding hvisible

/-- A refresh that reads the device before the command is there keeps it out of sight. -/
theorem hidden_while_held_early :
    let start := nothingLearned.asyncReserve learnFan.name
    let events := [.looked, .refreshed (statusListing 0 []), .looked]
    ∀ k ≤ 3, Holding EntityRegistry.listed learnFan start events (0 + reservationSeconds) k →
      1 ∉ (start.after EntityRegistry.listed learnFan events k).asyncVisibleCommands.1 := by
  intro start events
  refine (hidden_while_held_iff EntityRegistry.listed learnFan nothingLearned events 1 ?_).mpr ?_
  · intro status hdata
    obtain rfl := Option.some.inj hdata
    exact List.not_mem_nil
  · intro k status hevent _ _
    rcases k with _ | _ | _ | k
    · cases hevent
    · cases hevent
      exact List.not_mem_nil
    · cases hevent
    · cases hevent

end Reservations

end RfCloner
