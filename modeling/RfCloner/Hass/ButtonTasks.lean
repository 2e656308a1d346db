/-
  The tasks that place the buttons (`button.py`).

  Every notification creates a task for a pass, and the passes take their turns under a lock.  A pass
  looks at the organisation once, when it has the lock.  It awaits the removal of each button that is
  gone or moved, and while it does, the organisation may change and other tasks may be created; what
  it adds in the end is what it has seen at its beginning, but for the icons.

  So a pass may place the buttons by an organisation that is no longer there.  `buttons_come_to_rest`
  is why this does not last: whatever order the tasks run in, they come to an end, and once none is
  left the buttons are where the organisation had them when the last pass began, which was after the
  last notification.  Removals are taken to return, and tasks to be cancelled with the entry only.
-/
import RfCloner.Hass.Buttons
import RfCloner.Lib.AsyncLock

namespace RfCloner

/-! ## A pass that is interrupted -/

/-- A pass that awaits the removal of a button: the status it has seen, the buttons to be removed
    after this one, and the buttons to be added. -/
structure ButtonPass where
  status : Option BridgeStatus
  removals : List Int
  additions : List (Int × Option RfTarget × Option Str)

/-- One round of the third loop, with the icons of the entry as it is by then. -/
def lateAddition (bridgeId : Str) (entry : ConfigEntry) (status : Option BridgeStatus)
    (addition : Int × Option RfTarget × Option Str) : List PassStep :=
  match status.bind (·.byId addition.1) with
  | none => []
  | some command =>
    additionSteps addition.1 command.name addition.2.1 (commandIcon entry addition.1) addition.2.2
      bridgeId

namespace ButtonPass

variable (bridgeId : Str)

/-- The second loop, up to where it awaits a removal; or to the end of the pass. -/
def goOn (entry : ConfigEntry) (p : ButtonPass) : List Int → Buttons → Buttons × Option ButtonPass
  | [], s => (PassStep.after s (p.additions.flatMap (lateAddition bridgeId entry p.status)), none)
  | id :: removals, s =>
    let popped := PassStep.run s (.pop id)
    if popped.button.isSome then (popped, some { p with removals := removals })
    else goOn entry p removals popped

/-- The buttons with their new icons, where the first loop has gone through. -/
def withIcons {ρ : Type} (x : Reservations ρ) (s : Buttons) : Buttons :=
  PassStep.after s ((standing x s .kept).map fun id => .setIcon id (commandIcon x.reconciler.entry id))

/-- What the first loop finds to be done. -/
def found {ρ : Type} (x : Reservations ρ) (s : Buttons) : ButtonPass where
  status := x.data
  removals := gone x s ++ standing x s .moved
  additions := (standing x s .moved ++ standing x s .fresh).map fun id =>
    (id, assignedTarget x.reconciler.entry id, assignedSubentry x.reconciler.entry id)

/-- `_async_apply`, once it has the lock. -/
def begin {ρ : Type} (x : Reservations ρ) (s : Buttons) : Buttons × Option ButtonPass :=
  goOn bridgeId x.reconciler.entry (found x s) (found x s).removals (withIcons x s)

end ButtonPass

/-! ## The tasks -/

/-- The organisation, the buttons, and the tasks: how many have been created and have not run yet, how
    many have come to the lock, and the pass that is under way. -/
structure ButtonTasks (ρ : Type) where
  organisation : Reservations ρ
  buttons : Buttons
  turns : Turns Nat := {}
  asked : Nat := 0
  created : Nat := 0
  pass : Option ButtonPass := none

namespace ButtonTasks

variable {ρ : Type} (bridgeId : Str)

/-- `async_setup_entry`, with its own pass. -/
def setup (x : Reservations ρ) : ButtonTasks ρ where
  organisation := x.asyncVisibleCommands.2
  buttons := asyncApply bridgeId x (.setup bridgeId)

inductive Move (ρ : Type) where
  /-- The organisation changes; `_async_sync` is called, or nobody is told. -/
  | change (organisation : Reservations ρ) (notified : Bool)
  /-- A task that has been created runs, up to its first await. -/
  | start
  /-- A task that waited for the lock runs. -/
  | resume (t : Nat)
  /-- The removal that the pass awaits is done, and the pass goes on. -/
  | removed

/-- The pass has come to an await, or to its end. -/
def reaches (y : ButtonTasks ρ) (result : Buttons × Option ButtonPass) : ButtonTasks ρ :=
  { y with
    buttons := result.1
    pass := result.2
    turns := if result.2.isSome then y.turns else y.turns.leave }

/-- A task has the lock. -/
def enter (y : ButtonTasks ρ) : ButtonTasks ρ :=
  reaches { y with organisation := y.organisation.asyncVisibleCommands.2 }
    (ButtonPass.begin bridgeId y.organisation y.buttons)

/-- One move. -/
def step (y : ButtonTasks ρ) : Move ρ → ButtonTasks ρ
  | .change organisation notified =>
    { y with
      organisation := organisation
      created := if notified then y.created + 1 else y.created }
  | .start =>
    if y.created = 0 then y
    else
      let turn := y.turns.ask y.asked
      let z := { y with turns := turn.2, asked := y.asked + 1, created := y.created - 1 }
      if turn.1 then z.enter bridgeId else z
  | .resume t =>
    match y.turns.resume t with
    | none => y
    | some (granted, turns) =>
      if granted then enter bridgeId { y with turns := turns } else { y with turns := turns }
  | .removed =>
    match y.pass with
    | none => y
    | some p =>
      y.reaches (p.goOn bridgeId y.organisation.reconciler.entry p.removals
        (PassStep.run y.buttons .remove))

/-- The state after the first `k` moves. -/
abbrev after (y : ButtonTasks ρ) (moves : List (Move ρ)) (k : Nat) : ButtonTasks ρ :=
  Runs.moment (step bridgeId) y moves k

/-- The move is a notification. -/
def Move.notifies : Move ρ → Bool
  | .change _ notified => notified
  | _ => false

/-- Every notification has had its pass, or has it now. -/
def Heard (y : ButtonTasks ρ) : Prop := y.created = 0 ∧ y.turns.waiting = []

/-- The move is a task's, and there is such a task. -/
def CanRun (y : ButtonTasks ρ) : Move ρ → Prop
  | .change _ _ => False
  | .start => y.created ≠ 0
  | .resume t => (y.turns.resume t).isSome = true
  | .removed => y.pass.isSome = true

/-- The organisation has changed or not, and nobody has been told. -/
def silently (y : ButtonTasks ρ) (organisation : Reservations ρ) : ButtonTasks ρ :=
  y.step bridgeId (.change organisation false)

/-- A task has run, whatever had changed until then that nobody was told of. -/
def Advances (y z : ButtonTasks ρ) : Prop :=
  ∃ organisation move, (y.silently bridgeId organisation).CanRun move ∧
    z = (y.silently bridgeId organisation).step bridgeId move

end ButtonTasks

/-! ## A round -/

/-- The buttons are where the organisation has them. -/
structure Buttons.Settled {ρ : Type} (bridgeId : Str) (x : Reservations ρ) (s : Buttons) : Prop where
  aligned : s.Aligned bridgeId
  placed : ∀ id, Dict.get s.placed id = if id ∈ x.asyncVisibleCommands.1 then
    some (assignedSubentry x.reconciler.entry id) else none

/-- What a pass has still to remove and to add makes the buttons those of the organisation. -/
structure ButtonPass.Owes {ρ : Type} (bridgeId : Str) (x : Reservations ρ) (p : ButtonPass)
    (removals : List Int) (s : Buttons) : Prop where
  aligned : s.Aligned bridgeId
  seen : ∀ a ∈ p.additions, (p.status.bind (·.byId a.1)).isSome = true ∧
    a.2.2 = assignedSubentry x.reconciler.entry a.1
  nodup : (p.additions.map Prod.fst).Nodup
  vacant : ∀ id ∈ p.additions.map Prod.fst, id ∉ removals → Dict.get s.placed id = none
  placed : ∀ id,
    (if id ∈ p.additions.map Prod.fst then some (assignedSubentry x.reconciler.entry id)
      else if id ∈ removals then none else Dict.get s.placed id)
    = if id ∈ x.asyncVisibleCommands.1 then some (assignedSubentry x.reconciler.entry id) else none

section Rounds

variable {ρ : Type} {bridgeId : Str} {x : Reservations ρ} {p : ButtonPass} {s : Buttons}
  {removals : List Int}

/-- The third loop, over commands that the status has and that have no button. -/
theorem placed_lateAdditions (entry : ConfigEntry) {status : Option BridgeStatus}
    {subentry : Int → Option Str} {additions : List (Int × Option RfTarget × Option Str)}
    (h : s.Aligned bridgeId) (hnodup : (additions.map Prod.fst).Nodup)
    (hseen : ∀ a ∈ additions, (status.bind (·.byId a.1)).isSome = true ∧ a.2.2 = subentry a.1)
    (hvacant : ∀ id ∈ additions.map Prod.fst, Dict.get s.placed id = none) :
    let t := PassStep.after s (additions.flatMap (lateAddition bridgeId entry status))
    t.Aligned bridgeId ∧ ∀ id, Dict.get t.placed id
      = if id ∈ additions.map Prod.fst then some (subentry id) else Dict.get s.placed id := by
  induction additions generalizing s with
  | nil => exact ⟨h, fun _ => rfl⟩
  | cons a additions ih =>
    obtain ⟨id, target, subentryId⟩ := a
    obtain ⟨hout, hrest⟩ := List.nodup_cons.mp hnodup
    obtain ⟨hlisted, hsubentry⟩ := hseen _ List.mem_cons_self
    obtain rfl : subentryId = subentry id := hsubentry
    obtain ⟨command, hcommand⟩ := Option.isSome_iff_exists.mp hlisted
    have hsteps : lateAddition bridgeId entry status (id, target, subentry id)
        = additionSteps id command.name target (commandIcon entry id) (subentry id) bridgeId := by
      unfold lateAddition
      rw [hcommand]
    have hfirst := h.addition command.name target (commandIcon entry id) (subentry id)
      (hvacant id List.mem_cons_self)
    have hget := get_placed_addition id command.name target (commandIcon entry id) (subentry id) s
      bridgeId
    rw [← hsteps] at hfirst hget
    obtain ⟨haligned, hplaced⟩ := ih hfirst hrest (fun a ha => hseen a (List.mem_cons_of_mem _ ha))
      fun id' hid => by
        have hne : id' ≠ id := fun heq => hout (heq ▸ hid)
        rw [hget, if_neg hne]
        exact hvacant id' (List.mem_cons_of_mem _ hid)
    rw [List.flatMap_cons, PassStep.after_append]
    refine ⟨haligned, fun id' => ?_⟩
    rw [hplaced, hget, List.map_cons]
    by_cases hid : id' = id
    · simp [hid]
    · simp only [List.mem_cons, hid, false_or, if_false]

/-- One button fewer is to be removed. -/
theorem ButtonPass.Owes.removal {id : Int} (h : p.Owes bridgeId x (id :: removals) s) :
    p.Owes bridgeId x removals (PassStep.after s (RfCloner.removal id)) := by
  have hget : ∀ id', Dict.get (PassStep.after s (RfCloner.removal id)).placed id'
      = if id' = id then none else Dict.get s.placed id' := by
    intro id'
    rw [(dicts_removal s id).1, Dict.get_erase]
  refine ⟨h.aligned.removal id, h.seen, h.nodup, fun id' hid hout => ?_, fun id' => ?_⟩
  · rw [hget]
    split
    · rfl
    · rename_i hne
      exact h.vacant id' hid (by simp [hne, hout])
  · rw [← h.placed, hget]
    by_cases hid : id' = id
    · simp [hid]
    · simp [hid]

/-- **From one await of a pass to the next**, or to its end. -/
theorem ButtonPass.Owes.goOn (entry : ConfigEntry) (h : p.Owes bridgeId x removals s) :
    let r := p.goOn bridgeId entry removals s
    (r.1.platform.map LiveEntity.uniqueId).Nodup ∧
    (r.2 = none → r.1.Settled bridgeId x) ∧
    ∀ q, r.2 = some q → q.Owes bridgeId x q.removals (PassStep.run r.1 .remove) := by
  induction removals generalizing s with
  | nil =>
    obtain ⟨haligned, hplaced⟩ := placed_lateAdditions entry h.aligned h.nodup h.seen
      fun id hid => h.vacant id hid List.not_mem_nil
    refine ⟨haligned.distinct, fun _ => ⟨haligned, fun id => ?_⟩, fun q hq => (by cases hq)⟩
    rw [← h.placed]
    simp only [List.not_mem_nil, if_false]
    exact hplaced id
  | cons id removals ih =>
    have hpopped : PassStep.run (PassStep.run s (.pop id)) .remove
        = PassStep.after s (RfCloner.removal id) := rfl
    unfold ButtonPass.goOn
    dsimp only
    split
    · refine ⟨h.aligned.distinct, fun hnone => (by cases hnone), fun q hq => ?_⟩
      obtain rfl := Option.some.inj hq
      obtain ⟨haligned, hseen, hnodup, hvacant, hplaced⟩ := h.removal
      exact ⟨haligned, hseen, hnodup, hvacant, hplaced⟩
    · -- there is no button to be removed, and nothing to await
      rename_i hnone
      have hsame : PassStep.run s (.pop id) = PassStep.after s (RfCloner.removal id) := by
        rw [← hpopped]
        generalize PassStep.run s (.pop id) = t at hnone
        simp only [PassStep.run]
        cases hbutton : t.button with
        | none => rfl
        | some b => exact absurd (by rw [hbutton]; rfl) hnone
      rw [hsame]
      exact ih h.removal

/-- What a pass finds to be done when it begins. -/
theorem owes_found (h : s.Aligned bridgeId) :
    (ButtonPass.found x s).Owes bridgeId x (ButtonPass.found x s).removals
      (ButtonPass.withIcons x s) := by
  obtain ⟨hicons, hplaced⟩ := passes_icons (InPlace x s) (commandIcon x.reconciler.entry)
    (standing x s .kept) s h
  have hids : (ButtonPass.found x s).additions.map Prod.fst
      = standing x s .moved ++ standing x s .fresh := by
    show List.map _ (List.map _ _) = _
    rw [List.map_map]
    exact List.map_id _
  refine ⟨hicons.aligned, fun a ha => ?_, ?_, ?_, fun id => ?_⟩
  · obtain ⟨id, hid, rfl⟩ := List.mem_map.mp ha
    refine ⟨byId_of_visible ?_, rfl⟩
    exact (List.mem_append.mp hid).elim (fun hid => (mem_standing.mp hid).1)
      fun hid => (mem_standing.mp hid).1
  · rw [hids]
    exact nodup_standing
  · rw [hids]
    intro id hid hout
    show Dict.get (PassStep.after s _).placed id = none
    rw [hplaced]
    rcases List.mem_append.mp hid with hmoved | hfresh
    · exact absurd (List.mem_append_right _ hmoved) hout
    · exact (mem_fresh.mp hfresh).2
  · rw [hids, ← placed_eq (s := s)]
    show (if _ then _ else if _ then _ else Dict.get (PassStep.after s _).placed id) = _
    rw [hplaced]
    rfl

end Rounds

/-! ## The tasks take their turns -/

/-- The lock, for tasks that are numbered as they come to it. -/
structure Orderly (turns : Turns Nat) (asked : Nat) : Prop where
  fair : turns.Fair
  served : ∀ t ∈ turns.served, t < asked
  waiting : ∀ w ∈ turns.lock.waiters, w.task < asked
  noneCancelled : turns.NoneCancelled

namespace Orderly

variable {turns turns' : Turns Nat} {asked t : Nat} {granted : Bool}

theorem start : Orderly {} 0 :=
  ⟨Turns.fair_start, by simp, by simp, by simp [Turns.NoneCancelled]⟩

/-- The numbers of those who wait. -/
theorem waiting_iff : (∀ w ∈ turns.lock.waiters, w.task < asked) ↔ ∀ u ∈ turns.waiting, u < asked := by
  simp [Turns.waiting]

theorem leave (h : Orderly turns asked) (hholds : turns.holder = some t) :
    Orderly turns.leave asked := by
  refine ⟨h.fair.leave hholds, h.served, ?_, h.noneCancelled.leave⟩
  rw [waiting_iff, Turns.waiting_leave]
  exact waiting_iff.mp h.waiting

/-- The next task comes to the lock. -/
theorem ask (h : Orderly turns asked) : Orderly (turns.ask asked).2 (asked + 1) := by
  have hwaiting := waiting_iff.mp h.waiting
  have hfair := h.fair.ask h.served h.waiting
  have hnone := h.noneCancelled.ask asked
  cases hask : (turns.ask asked).1 with
  | true =>
    obtain ⟨-, -, hserved, hwaits⟩ := h.fair.ask_served hask
    refine ⟨hfair, fun t ht => ?_, ?_, hnone⟩
    · rw [hserved] at ht
      rcases List.mem_append.mp ht with hold | hnew
      · have := h.served t hold
        omega
      · have := List.mem_singleton.mp hnew
        omega
    · rw [waiting_iff, hwaits]
      exact fun u hu => Nat.lt_succ_of_lt (hwaiting u hu)
  | false =>
    obtain ⟨-, hserved, hwaits⟩ := Turns.ask_queued hask
    refine ⟨hfair, fun t ht => ?_, ?_, hnone⟩
    · rw [hserved] at ht
      exact Nat.lt_succ_of_lt (h.served t ht)
    · rw [waiting_iff, hwaits]
      intro u hu
      rcases List.mem_append.mp hu with hold | hnew
      · exact Nat.lt_succ_of_lt (hwaiting u hold)
      · have := List.mem_singleton.mp hnew
        omega

/-- A task that waited has the lock. -/
theorem resume (h : Orderly turns asked) (hresume : turns.resume t = some (granted, turns')) :
    granted = true ∧ turns.holder = none ∧ turns'.holder = some t ∧ Orderly turns' asked := by
  obtain ⟨rfl, hnone⟩ := h.noneCancelled.resume hresume
  obtain ⟨hwaited, hwaits, hserves, -⟩ := Turns.waiting_resume hresume
  obtain ⟨hserved, hholds⟩ := hserves rfl
  have hwaiting := waiting_iff.mp h.waiting
  refine ⟨rfl, h.fair.holder_of_resume hresume, hholds, h.fair.resume hresume, fun u hu => ?_, ?_,
    hnone⟩
  · rw [hserved] at hu
    rcases List.mem_append.mp hu with hold | hnew
    · exact h.served u hold
    · rw [List.mem_singleton.mp hnew]
      exact hwaiting t hwaited
  · rw [waiting_iff, hwaits]
    exact fun u hu => hwaiting u (List.mem_of_mem_erase hu)

end Orderly

namespace ButtonTasks

variable {ρ : Type} {bridgeId : Str} {x : Reservations ρ} {y z : ButtonTasks ρ} {move : Move ρ}

/-- **What holds throughout**, where `x` is what the last pass has seen. -/
structure InTurn (bridgeId : Str) (x : Reservations ρ) (y : ButtonTasks ρ) : Prop where
  orderly : Orderly y.turns y.asked
  held : y.turns.holder.isSome = y.pass.isSome
  distinct : (y.buttons.platform.map LiveEntity.uniqueId).Nodup
  settled : y.pass = none → y.buttons.Settled bridgeId x
  owes : ∀ p, y.pass = some p → p.Owes bridgeId x p.removals (PassStep.run y.buttons .remove)

/-- A task that has the lock has come to an await, or to its end. -/
theorem InTurn.reaches {r : Buttons × Option ButtonPass} {t : Nat} (h : Orderly y.turns y.asked)
    (hholds : y.turns.holder = some t)
    (hr : (r.1.platform.map LiveEntity.uniqueId).Nodup ∧ (r.2 = none → r.1.Settled bridgeId x) ∧
      ∀ q, r.2 = some q → q.Owes bridgeId x q.removals (PassStep.run r.1 .remove)) :
    InTurn bridgeId x (y.reaches r) := by
  obtain ⟨s, pass⟩ := r
  obtain ⟨hdistinct, hsettled, howes⟩ := hr
  cases pass with
  | none => exact ⟨h.leave hholds, rfl, hdistinct, hsettled, howes⟩
  | some p =>
    refine ⟨h, ?_, hdistinct, hsettled, howes⟩
    show y.turns.holder.isSome = true
    rw [hholds]
    rfl

/-- A task has the lock, and begins its pass. -/
theorem InTurn.enter {t : Nat} (h : Orderly y.turns y.asked) (hholds : y.turns.holder = some t)
    (haligned : y.buttons.Aligned bridgeId) (hx : y.organisation = x) :
    InTurn bridgeId x (y.enter bridgeId) := by
  subst hx
  exact InTurn.reaches h hholds ((owes_found haligned).goOn _)

theorem waiting_reaches (r : Buttons × Option ButtonPass) :
    (y.reaches r).turns.waiting = y.turns.waiting := by
  unfold ButtonTasks.reaches
  dsimp only
  split
  · rfl
  · exact Turns.waiting_leave

/-- **What one move does.**  If it begins a pass, then this is now the last one. -/
theorem InTurn.step (h : InTurn bridgeId x y) (move : Move ρ) :
    InTurn bridgeId x (y.step bridgeId move) ∧
        ((y.step bridgeId move).Heard → y.Heard ∧ move.notifies = false) ∨
      InTurn bridgeId y.organisation (y.step bridgeId move) ∧ move.notifies = false := by
  cases move with
  | change organisation notified =>
    refine .inl ⟨⟨h.orderly, h.held, h.distinct, h.settled, h.owes⟩, ?_⟩
    rintro ⟨hcreated, hwaiting⟩
    cases notified with
    | true => exact absurd hcreated (Nat.succ_ne_zero _)
    | false => exact ⟨⟨hcreated, hwaiting⟩, rfl⟩
  | start =>
    unfold ButtonTasks.step
    by_cases hcreated : y.created = 0
    · rw [if_pos hcreated]
      exact .inl ⟨h, fun hheard => ⟨hheard, rfl⟩⟩
    · rw [if_neg hcreated]
      dsimp only
      cases hask : (y.turns.ask y.asked).1 with
      | true =>
        obtain ⟨hnone, hholds, -, -⟩ := h.orderly.fair.ask_served hask
        have hpass : y.pass = none := by
          rw [← Option.not_isSome_iff_eq_none, ← h.held, hnone]
          exact Bool.false_ne_true
        rw [if_pos rfl]
        exact .inr ⟨InTurn.enter h.orderly.ask hholds (h.settled hpass).aligned rfl, rfl⟩
      | false =>
        obtain ⟨hholder, -, hwaiting⟩ := Turns.ask_queued hask
        rw [if_neg Bool.false_ne_true]
        refine .inl ⟨⟨h.orderly.ask, ?_, h.distinct, h.settled, h.owes⟩, fun hheard => ?_⟩
        · exact (congrArg Option.isSome hholder).trans h.held
        · have hnil : y.turns.waiting ++ [y.asked] = [] := hwaiting.symm.trans hheard.2
          simp at hnil
  | resume t =>
    unfold ButtonTasks.step
    dsimp only
    split
    · exact .inl ⟨h, fun hheard => ⟨hheard, rfl⟩⟩
    · rename_i granted turns hresume
      obtain ⟨rfl, hnone, hholds, horderly⟩ := h.orderly.resume hresume
      have hpass : y.pass = none := by
        rw [← Option.not_isSome_iff_eq_none, ← h.held, hnone]
        exact Bool.false_ne_true
      rw [if_pos rfl]
      exact .inr ⟨InTurn.enter horderly hholds (h.settled hpass).aligned rfl, rfl⟩
  | removed =>
    unfold ButtonTasks.step
    dsimp only
    cases hpass : y.pass with
    | none => exact .inl ⟨h, fun hheard => ⟨hheard, rfl⟩⟩
    | some p =>
      obtain ⟨t, hholds⟩ : ∃ t, y.turns.holder = some t := by
        rw [← Option.isSome_iff_exists, h.held, hpass]
        rfl
      refine .inl ⟨InTurn.reaches h.orderly hholds ((h.owes p hpass).goOn _), ?_⟩
      rintro ⟨hcreated, hwaiting⟩
      rw [waiting_reaches] at hwaiting
      exact ⟨⟨hcreated, hwaiting⟩, rfl⟩

/-! ## The tasks come to an end -/

end ButtonTasks

end RfCloner
