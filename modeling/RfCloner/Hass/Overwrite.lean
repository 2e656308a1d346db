/-
  Flows under a foreign identity.

  While the device reports another bridge's identity the reconciler is frozen, but the flows are not:
  what they record is keyed by the bare command id, and an id of the foreign registry may be one of
  the entry's own bridge.  `organisation_survives_iff` is when the organisation comes through.
-/
import RfCloner.Hass.Freeze
import RfCloner.Hass.Flows
import RfCloner.Lib.Runs

namespace RfCloner

open CommandReconciler

/-- What happens to the mirror of a bridge, the user's flows included. -/
inductive UseEvent (ρ : Type)
  | mirror (event : MirrorEvent ρ)
  | flow (step : FlowStep)

/-- The event does not end a mismatch with the identity `B`. -/
def UseEvent.Foreign {ρ : Type} (B : Str) : UseEvent ρ → Prop
  | mirror (.poll status _ _) => status.bridgeId ≠ B
  | mirror (.update ..) => True
  | flow _ => True

theorem getD_recorded (m : CommandMeta) : m.recorded.getD {} = m := by
  obtain ⟨targetId, icon⟩ := m
  cases targetId <;> cases icon <;> rfl

namespace Mirror

variable {ρ : Type} (R : EntityRegistry ρ)

/-- One event. -/
def use (x : Mirror ρ) : UseEvent ρ → Mirror ρ
  | .mirror event => x.step R event
  | .flow step => { x with reconciler := step.apply x.data x.reconciler }

/-- The mirror after the first `k` events. -/
def after (x : Mirror ρ) (events : List (UseEvent ρ)) (k : Nat) : Mirror ρ :=
  (events.take k).foldl (use R) x

/-- The target was missing at some moment of the first `k` events. -/
def Gone (x : Mirror ρ) (events : List (UseEvent ρ)) (k : Nat) (t : Str) : Prop :=
  ∃ j ≤ k, Missing (x.after R events j).reconciler.entry t

/-- The flow step records nothing for a command of the bridge but what it had. -/
def Spares (commands : UInt32 → Prop) (gone : Str → Prop) (before : ConfigEntry) (x : Mirror ρ)
    (step : FlowStep) : Prop :=
  ∀ id m, step.places x.data x.reconciler.entry = some (id, m) →
    ∀ command : UInt32, commands command → id = command.toNat →
      (metaOf before command).Kept gone m

variable {R} {B : Str} {x : Mirror ρ} {events : List (UseEvent ρ)} {commands : UInt32 → Prop}
  {before : ConfigEntry} {gone : Str → Prop}

/-- The reconciler is frozen. -/
structure Frozen (B : Str) (x : Mirror ρ) : Prop where
  uniqueId : x.reconciler.entry.uniqueId = some B
  mismatch : x.reconciler.identityMismatch = true

/-- Under a foreign identity a poll changes nothing of the entry. -/
theorem reconciler_poll_of_foreign {status : BridgeStatus} {now : Timestamp}
    {answers : Nat → Int → ExportResult} (hB : x.reconciler.entry.uniqueId = some B)
    (hid : status.bridgeId ≠ B) :
    (x.poll R status now answers).reconciler = { x.reconciler with identityMismatch := true } :=
  asyncReconcile_of_foreign hB hid

/-- What is left of an entry by an update while the reconciler is frozen. -/
theorem Frozen.entry_update (h : Frozen B x) (subentries : List ConfigSubentry) (touch : ρ → ρ)
    (accepts : Bool) :
    let entry : ConfigEntry := { x.reconciler.entry with subentries := subentries }
    (x.update subentries touch accepts).reconciler.entry = entry ∨
    (x.update subentries touch accepts).reconciler.entry
      = entry.prunedTo none (x.data.map BridgeStatus.nextCommandId) := by
  intro entry
  cases accepts with
  | false => exact Or.inl rfl
  | true =>
    refine Or.inr ?_
    have hlisting : x.reconciler.asyncListedCommands x.data = none := by
      unfold asyncListedCommands
      rw [h.mismatch]
      cases x.data <;> rfl
    show entry.prunedTo (x.reconciler.asyncListedCommands x.data) _ = _
    rw [hlisting]

/-- **The freeze holds**: no event ends it but a status of the bridge. -/
theorem Frozen.use (h : Frozen B x) {event : UseEvent ρ} (hforeign : event.Foreign B) :
    Frozen B (x.use R event) := by
  cases event with
  | mirror event =>
    cases event with
    | poll status now answers =>
      have hpoll : (x.poll R status now answers).reconciler
          = { x.reconciler with identityMismatch := true } :=
        reconciler_poll_of_foreign h.uniqueId hforeign
      show Frozen B (x.poll R status now answers)
      constructor
      · rw [hpoll]
        exact h.uniqueId
      · rw [hpoll]
    | update subentries touch accepts =>
      show Frozen B (x.update subentries touch accepts)
      constructor
      · rcases h.entry_update subentries touch accepts with hentry | hentry
        · rw [hentry]
          exact h.uniqueId
        · rw [hentry, (entryId_prunedTo _ _ _).2.1]
          exact h.uniqueId
      · cases accepts <;> exact h.mismatch
  | flow step =>
    obtain ⟨-, hunique, -, -, hmark⟩ := step.apply_frame x.data x.reconciler
    exact ⟨hunique.trans h.uniqueId, hmark.trans h.mismatch⟩

/-- **What an event that is not a flow does to the metadata of a command**: it may lose its target,
    if the target is missing then. -/
theorem Frozen.kept_mirror (h : Frozen B x) {event : MirrorEvent ρ}
    (hforeign : (UseEvent.mirror event).Foreign B) (id : UInt32) :
    (metaOf x.reconciler.entry id).Kept (Missing (x.use R (.mirror event)).reconciler.entry)
      (metaOf (x.use R (.mirror event)).reconciler.entry id) := by
  cases event with
  | poll status now answers =>
    have hpoll : (x.poll R status now answers).reconciler
        = { x.reconciler with identityMismatch := true } :=
      reconciler_poll_of_foreign h.uniqueId hforeign
    show CommandMeta.Kept (Missing (x.poll R status now answers).reconciler.entry) _
      (metaOf (x.poll R status now answers).reconciler.entry id)
    rw [hpoll]
    exact ⟨rfl, Or.inl rfl⟩
  | update subentries touch accepts =>
    show CommandMeta.Kept (Missing (x.update subentries touch accepts).reconciler.entry) _
      (metaOf (x.update subentries touch accepts).reconciler.entry id)
    rcases h.entry_update subentries touch accepts with hentry | hentry
    · rw [hentry]
      exact ⟨rfl, Or.inl rfl⟩
    · rw [hentry]
      rw [missing_prunedTo]
      exact kept_prunedTo _ rfl

/-- What a flow step does to the metadata of a command: it is what the step places for it, if it
    places something. -/
theorem metaOf_flow (x : Mirror ρ) (step : FlowStep) (command : UInt32) :
    metaOf (x.use R (.flow step)).reconciler.entry command
      = match step.places x.data x.reconciler.entry with
        | none => metaOf x.reconciler.entry command
        | some (id, m) => if id = command.toNat then m else metaOf x.reconciler.entry command := by
  show metaOf (step.apply x.data x.reconciler).entry command = _
  cases hplaces : step.places x.data x.reconciler.entry with
  | none => rw [FlowStep.apply_of_none hplaces]
  | some p =>
    obtain ⟨id, m⟩ := p
    dsimp only
    unfold metaOf
    by_cases hid : id = command.toNat
    · subst hid
      have hsmall : ((command.toNat : Int)).natAbs < 10 ^ Decimal.maxDigits := by
        have hword : command.toNat < 2 ^ 32 := command.toNat_lt
        have hpow : 2 ^ 32 ≤ 10 ^ Decimal.maxDigits := by decide +kernel
        omega
      rw [FlowStep.metaFor_apply hplaces hsmall, if_pos rfl, getD_recorded]
    · rw [FlowStep.metaFor_apply_of_ne hplaces (Ne.symm hid), if_neg hid]

theorem missing_flow (x : Mirror ρ) (step : FlowStep) (t : Str) :
    Missing (x.use R (.flow step)).reconciler.entry t ↔ Missing x.reconciler.entry t := by
  show Missing (step.apply x.data x.reconciler).entry t ↔ _
  unfold Missing targets
  rw [(step.apply_frame x.data x.reconciler).1]

/-- **The flow that keeps the metadata of the commands is the one that spares them.** -/
theorem kept_flow_iff {step : FlowStep} (hbefore : ∀ command, commands command →
      (metaOf before command).Kept gone (metaOf x.reconciler.entry command)) :
    (∀ command, commands command →
      (metaOf before command).Kept gone (metaOf (x.use R (.flow step)).reconciler.entry command)) ↔
    x.Spares commands gone before step := by
  constructor
  · -- What a flow records is what the metadata is after it.
    intro hkept id m hplaces command hcommand hcid
    have hnext := hkept command hcommand
    rw [metaOf_flow, hplaces] at hnext
    dsimp only at hnext
    rwa [if_pos hcid] at hnext
  · intro hspares command hcommand
    rw [metaOf_flow]
    cases hplaces : step.places x.data x.reconciler.entry with
    | none => exact hbefore command hcommand
    | some p =>
      obtain ⟨id, m⟩ := p
      dsimp only
      by_cases hcid : id = command.toNat
      · rw [if_pos hcid]
        exact hspares id m hplaces command hcommand hcid
      · rw [if_neg hcid]
        exact hbefore command hcommand

/-- A target that is missing once is gone for good. -/
theorem Gone.next {k : Nat} {t : Str} (h : x.Gone R events k t) : x.Gone R events (k + 1) t := by
  obtain ⟨j, hj, hmissing⟩ := h
  exact ⟨j, by omega, hmissing⟩

/-- A flow removes no target. -/
theorem gone_flow {k : Nat} {step : FlowStep} (h : events[k]? = some (.flow step)) :
    x.Gone R events (k + 1) = x.Gone R events k := by
  funext t
  refine propext ⟨fun ⟨j, hj, hmissing⟩ => ?_, Gone.next⟩
  rcases Nat.lt_or_ge j (k + 1) with hlt | hge
  · exact ⟨j, by omega, hmissing⟩
  · obtain rfl : j = k + 1 := by omega
    have hnext : x.after R events (k + 1) = (x.after R events k).use R (.flow step) :=
      Runs.moment_succ h
    rw [hnext, missing_flow] at hmissing
    exact ⟨k, Nat.le_refl _, hmissing⟩

/-- **While the device reports a foreign identity, the organisation of the bridge survives exactly
    if no flow records something for the id of one of its commands** but what that command had.  For
    any state of the mirror when the foreign status arrives, any set of commands of the bridge, and
    any sequence of foreign polls, changes of targets and flows. -/
theorem organisation_survives_iff (R : EntityRegistry ρ) {B : Str} (x : Mirror ρ)
    (status : BridgeStatus) (now : Timestamp) (answers : Nat → Int → ExportResult)
    (hB : x.reconciler.entry.uniqueId = some B) (hid : status.bridgeId ≠ B)
    (events : List (UseEvent ρ)) (hevents : ∀ event ∈ events, event.Foreign B)
    (commands : UInt32 → Prop) :
    let start := x.poll R status now answers
    (∀ k ≤ events.length, ∀ command, commands command →
      (metaOf x.reconciler.entry command).Kept (start.Gone R events k)
        (metaOf (start.after R events k).reconciler.entry command)) ↔
    ∀ k step, events[k]? = some (.flow step) →
      (start.after R events k).Spares commands (start.Gone R events k) x.reconciler.entry step := by
  intro start
  have hpoll : start.reconciler = { x.reconciler with identityMismatch := true } :=
    reconciler_poll_of_foreign hB hid
  have hfrozen : Frozen B (start.after R events 0) :=
    ⟨(congrArg (fun r => r.entry.uniqueId) hpoll).trans hB,
      congrArg CommandReconciler.identityMismatch hpoll⟩
  have hkept : ∀ command, commands command → (metaOf x.reconciler.entry command).Kept
      (start.Gone R events 0) (metaOf (start.after R events 0).reconciler.entry command) := by
    intro command _
    show CommandMeta.Kept _ _ (metaOf start.reconciler.entry command)
    rw [hpoll]
    exact ⟨rfl, Or.inl rfl⟩
  -- while the freeze holds, only a flow can do harm
  have hexact := Runs.forall_le_iff events
    (I := fun k => Frozen B (start.after R events k))
    (Q := fun k => ∀ command, commands command → (metaOf x.reconciler.entry command).Kept
      (start.Gone R events k) (metaOf (start.after R events k).reconciler.entry command))
    (C := fun k event => ∀ step, event = .flow step →
      (start.after R events k).Spares commands (start.Gone R events k) x.reconciler.entry step)
    hfrozen hkept (by
      intro k event hevent hfrozen hbefore
      have hnext : start.after R events (k + 1) = (start.after R events k).use R event :=
        Runs.moment_succ hevent
      have hforeign : event.Foreign B := hevents event (List.mem_of_getElem? hevent)
      rw [hnext]
      refine ⟨hfrozen.use hforeign, ?_⟩
      cases event with
      | mirror event =>
        refine iff_of_true (fun command hcommand => ?_) fun _ h => nomatch h
        refine ((hbefore command hcommand).trans (hfrozen.kept_mirror hforeign command)).mono ?_
        rintro t (hgone | hmissing)
        · exact hgone.next
        · rw [← hnext] at hmissing
          exact ⟨k + 1, Nat.le_refl _, hmissing⟩
      | flow step =>
        rw [gone_flow hevent, kept_flow_iff hbefore]
        exact ⟨fun h _ heq => UseEvent.flow.inj heq ▸ h, fun h => h step rfl⟩)
  refine hexact.trans ⟨fun h k step hstep => h k _ hstep step rfl, ?_⟩
  intro h k event hevent step hstep
  exact h k step (hstep ▸ hevent)

/-! ## A foreign command of the same id -/

/-- An entry of the bridge "b" whose command 1 is on the target "fan", with an icon. -/
def organised : ConfigEntry where
  entryId := str "e"
  uniqueId := some (str "b")
  options := [(optCommands, .dict [(str "1",
    .dict [(confTargetId, .str (str "t")), (confIcon, .str (str "mdi:fan"))])])]
  subentries := [⟨str "s", subentryTypeTarget, str "Fan", [(confTargetId, .str (str "t"))]⟩]

/-- The status of a device that calls itself "x" and has one command, under id 1. -/
def foreignStatus : BridgeStatus :=
  ⟨str "x", 2, 2, false, false, str "none", str "ok", 1, 4, 200, 128, 4096, [⟨1, str "gate", 4⟩]⟩

/-- The options flow saves the foreign command as it is offered, without a target. -/
def savedForeign : FlowStep :=
  .command (some 1) ⟨str "gate", none, some (str "mdi:gate"), false⟩ true

/-- **The icon and the target of the bridge's own command are gone**, and the form did not object. -/
theorem foreign_edit_overwrites :
    let start := Mirror.poll EntityRegistry.listed
      ⟨.new organised ⟨[], List.nodup_nil⟩, ⟨str "b", none⟩, none⟩ foreignStatus 0
      fun _ _ => .raises
    let events := [UseEvent.flow savedForeign]
    metaOf organised 1 = ⟨some (str "t"), some (str "mdi:fan")⟩ ∧
    metaOf (start.after EntityRegistry.listed events 1).reconciler.entry 1
      = ⟨none, some (str "mdi:gate")⟩ ∧
    ¬(metaOf organised 1).Kept (start.Gone EntityRegistry.listed events 1)
      (metaOf (start.after EntityRegistry.listed events 1).reconciler.entry 1) := by
  intro start events
  have hafter : metaOf (start.after EntityRegistry.listed events 1).reconciler.entry 1
      = ⟨none, some (str "mdi:gate")⟩ := by decide +kernel
  have hbefore : metaOf organised 1 = ⟨some (str "t"), some (str "mdi:fan")⟩ := by decide +kernel
  refine ⟨hbefore, hafter, fun hkept => ?_⟩
  have hicon := hkept.1
  rw [hafter, hbefore] at hicon
  exact absurd hicon (by decide)

/-- A flow saves what the command of the bridge has, under the foreign name. -/
def savedAgain : FlowStep :=
  .command (some 1) ⟨str "gate", some ⟨str "t", by decide⟩, some (str "mdi:fan"), false⟩ true

/-- A flow saves an icon under an id that the bridge has not given away. -/
def savedOther : FlowStep :=
  .command (some 2) ⟨str "bell", none, some (str "mdi:bell"), false⟩ true

/-- The command of the bridge keeps its icon through both flows, and its target until that is removed. -/
theorem organisation_survives_sparing_flows :
    let status : BridgeStatus :=
      { foreignStatus with commands := [⟨1, str "gate", 4⟩, ⟨2, str "bell", 4⟩] }
    let start := Mirror.poll EntityRegistry.listed
      ⟨.new organised ⟨[], List.nodup_nil⟩, ⟨str "b", none⟩, none⟩ status 0 fun _ _ => .raises
    let events := [UseEvent.flow savedAgain, .flow savedOther, .mirror (.update [] id true)]
    metaOf (start.after EntityRegistry.listed events 2).reconciler.entry 2
      = ⟨none, some (str "mdi:bell")⟩ ∧
    ∀ k ≤ 3, (metaOf organised 1).Kept (start.Gone EntityRegistry.listed events k)
      (metaOf (start.after EntityRegistry.listed events k).reconciler.entry 1) := by
  intro status start events
  have hagain : ∀ entry, savedAgain.places (some status) entry
      = some (1, ⟨some (str "t"), some (str "mdi:fan")⟩) := by
    intro entry
    show savedAgain.places (some status) organised = _
    decide +kernel
  have hother : ∀ entry, savedOther.places (some status) entry
      = some (2, ⟨none, some (str "mdi:bell")⟩) := by
    intro entry
    show savedOther.places (some status) organised = _
    decide +kernel
  have hforeign : ∀ event ∈ events, event.Foreign (str "b") := by
    intro event hevent
    simp only [events, List.mem_cons, List.not_mem_nil, or_false] at hevent
    rcases hevent with rfl | rfl | rfl
    all_goals trivial
  constructor
  · show metaOf ((start.after EntityRegistry.listed events 1).use EntityRegistry.listed
      (.flow savedOther)).reconciler.entry 2 = _
    rw [metaOf_flow]
    rw [show (start.after EntityRegistry.listed events 1).data = some status from rfl, hother]
    exact if_pos rfl
  intro k hk
  refine (organisation_survives_iff EntityRegistry.listed (B := str "b")
    ⟨.new organised ⟨[], List.nodup_nil⟩, ⟨str "b", none⟩, none⟩ status 0
    (fun _ _ => .raises) rfl (by decide) events hforeign (· = 1)).mpr ?_ k hk 1 rfl
  intro k step hstep id m hplaces command hcommand hid
  subst hcommand
  rcases k with _ | _ | _ | k
  · obtain rfl : savedAgain = step := UseEvent.flow.inj (Option.some.inj hstep)
    obtain ⟨-, rfl⟩ := Prod.mk.inj (Option.some.inj ((hagain _).symm.trans hplaces))
    have hbefore : metaOf organised 1 = ⟨some (str "t"), some (str "mdi:fan")⟩ := by decide +kernel
    show (metaOf organised 1).Kept _ _
    rw [hbefore]
    exact ⟨rfl, Or.inl rfl⟩
  · obtain rfl : savedOther = step := UseEvent.flow.inj (Option.some.inj hstep)
    obtain ⟨rfl, -⟩ := Prod.mk.inj (Option.some.inj ((hother _).symm.trans hplaces))
    exact absurd hid (by decide)
  · cases hstep
  · cases hstep

end Mirror

end RfCloner
