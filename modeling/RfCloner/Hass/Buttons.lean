/-
  The buttons of the commands (`button.py`).

  A button is added under the subentry of its command's target and stays there, so a command moves
  by way of a new button.  A pass compares where the buttons are (`placed`) with where they should
  be, takes away what is gone or moved, and only then adds what is moved or fresh.  `passSteps` is
  the pass as its steps, one for each point at which something of the platform or of the two
  dictionaries has changed, and `during` the states between them.

  `Aligned` is what holds between the rounds of the two loops: the live entities are those of the
  dictionary and the one of `cancel_learn`, each under a unique id of its own.  A round changes the
  platform in its last step only, so that its first step has nothing to be shown of.
-/
import RfCloner.Hass.Reservations
import Mathlib.Data.List.Dedup

namespace RfCloner

/-! ## What a button shows -/

/-- `assigned_target`. -/
def assignedTarget (entry : ConfigEntry) (commandId : Int) : Option RfTarget :=
  match (metaFor entry commandId).bind CommandMeta.targetId with
  | none => none
  | some targetId => Dict.get (targets entry) targetId

/-- `command_icon`. -/
def commandIcon (entry : ConfigEntry) (commandId : Int) : Str :=
  ((metaFor entry commandId).bind CommandMeta.icon).getD defaultCommandIcon

/-- The subentry that a command's button belongs under. -/
def assignedSubentry (entry : ConfigEntry) (commandId : Int) : Option Str :=
  (assignedTarget entry commandId).map RfTarget.subentryId

/-- `CommandButton`.  `object` tells it from every other object. -/
structure CommandButton where
  object : Nat
  commandId : Int
  name : Str
  target : Option RfTarget
  icon : Str

/-- An entity of the platform, with the subentry it was added under. -/
structure LiveEntity where
  object : Nat
  uniqueId : Str
  subentryId : Option Str
  deriving DecidableEq

/-- `CancelLearnButton`. -/
def cancelLearn (bridgeId : Str) : LiveEntity :=
  ⟨0, uniqueIdPrefix bridgeId ++ str "cancel_learn", none⟩

/-- What `async_setup_entry` keeps, and the entities that are live.  `button` is the variable of the
    two loops, and `allocated` the number of objects made so far. -/
structure Buttons where
  placed : List (Int × Option Str)
  entities : List (Int × CommandButton)
  platform : List LiveEntity
  button : Option CommandButton
  allocated : Nat

/-- `async_setup_entry`, up to its first pass. -/
def Buttons.setup (bridgeId : Str) : Buttons where
  placed := []
  entities := []
  platform := [cancelLearn bridgeId]
  button := none
  allocated := 1

/-! ## A pass -/

/-- One step of `_async_apply`. -/
inductive PassStep where
  /-- `entities.get(command_id)`, and its icon. -/
  | setIcon (commandId : Int) (icon : Str)
  /-- `placed.pop(command_id)`, `entities.pop(command_id)`. -/
  | pop (commandId : Int)
  /-- `await button.async_remove()`. -/
  | remove
  /-- A new button in `entities` and `placed`. -/
  | create (commandId : Int) (name : Str) (target : Option RfTarget) (icon : Str)
      (subentryId : Option Str)
  /-- `async_add_entities([button])`. -/
  | add (bridgeId : Str) (subentryId : Option Str)

namespace PassStep

/-- What a step does. -/
def run (s : Buttons) : PassStep → Buttons
  | .setIcon commandId icon =>
    match Dict.get s.entities commandId with
    | none => s
    | some button => { s with entities := Dict.set s.entities commandId { button with icon := icon } }
  | .pop commandId =>
    { s with
      placed := Dict.erase s.placed commandId
      button := Dict.get s.entities commandId
      entities := Dict.erase s.entities commandId }
  | .remove =>
    match s.button with
    | none => s
    | some button =>
      { s with platform := s.platform.filter fun e => e.object ≠ button.object, button := none }
  | .create commandId name target icon subentryId =>
    let button : CommandButton := ⟨s.allocated, commandId, name, target, icon⟩
    { s with
      entities := Dict.set s.entities commandId button
      placed := Dict.set s.placed commandId subentryId
      button := some button
      allocated := s.allocated + 1 }
  | .add bridgeId subentryId =>
    match s.button with
    | none => s
    | some button =>
      { s with
        platform := s.platform ++
          [⟨button.object, commandUniqueId bridgeId button.commandId, subentryId⟩]
        button := none }

/-- The states that steps go through, the first and the last among them. -/
def during (s : Buttons) : List PassStep → List Buttons
  | [] => [s]
  | step :: steps => s :: during (step.run s) steps

/-- Where steps lead to. -/
def after (s : Buttons) (steps : List PassStep) : Buttons := steps.foldl run s

end PassStep

/-- How a command's button stands to where it should be. -/
inductive Placing where
  | fresh | moved | kept
  deriving DecidableEq

/-- The branches of the first loop. -/
def placing (placed : List (Int × Option Str)) (commandId : Int) (subentryId : Option Str) : Placing :=
  match Dict.get placed commandId with
  | none => .fresh
  | some current => if current ≠ subentryId then .moved else .kept

/-- One round of the second loop. -/
def removal (commandId : Int) : List PassStep := [.pop commandId, .remove]

/-- One round of the third loop: nothing for a command that the status does not have. -/
def addition (bridgeId : Str) (entry : ConfigEntry) (status : Option BridgeStatus)
    (commandId : Int) : List PassStep :=
  match status.bind (·.byId commandId) with
  | none => []
  | some command =>
    [.create commandId command.name (assignedTarget entry commandId) (commandIcon entry commandId)
        (assignedSubentry entry commandId),
      .add bridgeId (assignedSubentry entry commandId)]

/-- `sorted` of a set. -/
def sortedSet (l : List Int) : List Int := l.dedup.mergeSort (· ≤ ·)

section Pass

variable {ρ : Type} (x : Reservations ρ) (s : Buttons)

/-- `sorted(wanted)`. -/
def wanted : List Int := sortedSet x.asyncVisibleCommands.1

/-- `gone`. -/
def gone : List Int := (s.placed.map Prod.fst).filter fun id => id ∉ wanted x

/-- The wanted commands of one branch: `fresh`, `moved`, and those whose placement still matches. -/
def standing (how : Placing) : List Int :=
  (wanted x).filter fun id => placing s.placed id (assignedSubentry x.reconciler.entry id) = how

/-- The steps of `_async_apply`. -/
def passSteps (bridgeId : Str) : List PassStep :=
  (standing x s .kept).map (fun id => .setIcon id (commandIcon x.reconciler.entry id))
    ++ ((gone x s ++ standing x s .moved).flatMap removal
    ++ (standing x s .moved ++ standing x s .fresh).flatMap
      (addition bridgeId x.reconciler.entry x.data))

end Pass

/-- `_async_apply`, uninterrupted. -/
def asyncApply {ρ : Type} (bridgeId : Str) (x : Reservations ρ) (s : Buttons) : Buttons :=
  PassStep.after s (passSteps x s bridgeId)

/-! ## Where a button belongs -/

/-- Where the button of a command belongs, by what is stored of it: under the subentry of the target
    that its metadata names, and under none if that target does not exist or none is named. -/
inductive BelongsUnder (entry : ConfigEntry) (commandId : Int) : Option Str → Prop where
  | assigned {m : CommandMeta} {targetId : Str} {target : RfTarget}
      (hmeta : metaFor entry commandId = some m) (hnamed : m.targetId = some targetId)
      (hfound : Dict.get (targets entry) targetId = some target) :
      BelongsUnder entry commandId (some target.subentryId)
  | stranded {m : CommandMeta} {targetId : Str} (hmeta : metaFor entry commandId = some m)
      (hnamed : m.targetId = some targetId) (hgone : Dict.get (targets entry) targetId = none) :
      BelongsUnder entry commandId none
  | unassigned (hnone : ∀ m, metaFor entry commandId = some m → m.targetId = none) :
      BelongsUnder entry commandId none

/-- A button belongs in one place, which is where `assigned_target` puts it. -/
theorem belongsUnder_iff {entry : ConfigEntry} {id : Int} {place : Option Str} :
    BelongsUnder entry id place ↔ place = assignedSubentry entry id := by
  constructor
  · intro h
    unfold assignedSubentry assignedTarget
    cases h with
    | assigned hmeta hnamed hfound =>
      rw [hmeta, Option.bind_some, hnamed]
      dsimp only
      rw [hfound]
      rfl
    | stranded hmeta hnamed hgone =>
      rw [hmeta, Option.bind_some, hnamed]
      dsimp only
      rw [hgone]
      rfl
    | unassigned hnone =>
      have hunnamed : (metaFor entry id).bind CommandMeta.targetId = none := by
        rw [Option.bind_eq_none_iff]
        exact hnone
      rw [hunnamed]
      rfl
  · rintro rfl
    unfold assignedSubentry assignedTarget
    cases hmeta : metaFor entry id with
    | none => exact .unassigned fun m hm => by rw [hmeta] at hm; cases hm
    | some m =>
      rw [Option.bind_some]
      cases hnamed : m.targetId with
      | none =>
        refine .unassigned fun m' hm' => ?_
        obtain rfl := Option.some.inj (hmeta.symm.trans hm')
        exact hnamed
      | some targetId =>
        dsimp only
        cases hfound : Dict.get (targets entry) targetId with
        | none => exact .stranded hmeta hnamed hfound
        | some target => exact .assigned hmeta hnamed hfound

/-! ## Unique ids -/

theorem commandUniqueId_inj {bridgeId : Str} {id id' : Int}
    (h : commandUniqueId bridgeId id = commandUniqueId bridgeId id') : id = id' :=
  Decimal.toText_inj (List.append_cancel_left h)

theorem commandUniqueId_ne_cancelLearn {bridgeId : Str} {id : Int} :
    commandUniqueId bridgeId id ≠ (cancelLearn bridgeId).uniqueId := by
  intro h
  exact Decimal.toText_ne_cons (by decide) (by decide) (List.append_cancel_left h)

theorem mem_sortedSet {l : List Int} {id : Int} : id ∈ sortedSet l ↔ id ∈ l := by
  unfold sortedSet
  rw [(List.mergeSort_perm _ _).mem_iff, List.mem_dedup]

theorem nodup_sortedSet (l : List Int) : (sortedSet l).Nodup :=
  (List.mergeSort_perm _ _).nodup_iff.mpr (List.nodup_dedup l)

/-! ## Between the rounds -/

/-- The dictionaries agree with each other and with the platform, whose entities have unique ids of
    their own. -/
structure Buttons.Aligned (bridgeId : Str) (s : Buttons) : Prop where
  unique : Dict.Unique s.placed
  keys : ∀ id, (Dict.get s.placed id).isSome = (Dict.get s.entities id).isSome
  owns : ∀ id b, Dict.get s.entities id = some b →
    b.commandId = id ∧ 0 < b.object ∧ b.object < s.allocated
  apart : ∀ id id' b b', Dict.get s.entities id = some b → Dict.get s.entities id' = some b' →
    b.object = b'.object → id = id'
  platform : ∀ e, e ∈ s.platform ↔ e = cancelLearn bridgeId ∨
    ∃ id b subentryId, Dict.get s.entities id = some b ∧ Dict.get s.placed id = some subentryId ∧
      e = ⟨b.object, commandUniqueId bridgeId id, subentryId⟩
  distinct : (s.platform.map LiveEntity.uniqueId).Nodup
  allocated : 0 < s.allocated

/-- The buttons of some commands are the same objects, and live. -/
structure Buttons.Stays (bridgeId : Str) (untouched : Int → Prop) (s t : Buttons) : Prop where
  object : ∀ id, untouched id → (Dict.get t.entities id).map CommandButton.object
    = (Dict.get s.entities id).map CommandButton.object
  live : ∀ e ∈ s.platform, (∃ id, untouched id ∧ e.uniqueId = commandUniqueId bridgeId id) →
    e ∈ t.platform

/-- Steps that keep to this all the way: no two live entities have one unique id, and the untouched
    buttons stay. -/
structure Passes (bridgeId : Str) (untouched : Int → Prop) (s : Buttons) (steps : List PassStep) :
    Prop where
  aligned : (PassStep.after s steps).Aligned bridgeId
  distinct : ∀ t ∈ PassStep.during s steps, (t.platform.map LiveEntity.uniqueId).Nodup
  stays : ∀ t ∈ PassStep.during s steps, s.Stays bridgeId untouched t

section Rounds

variable {bridgeId : Str} {untouched : Int → Prop} {s t u : Buttons}

theorem Buttons.Stays.refl : s.Stays bridgeId untouched s :=
  ⟨fun _ _ => rfl, fun _ he _ => he⟩

theorem Buttons.Stays.trans (h : s.Stays bridgeId untouched t) (h' : t.Stays bridgeId untouched u) :
    s.Stays bridgeId untouched u :=
  ⟨fun id hid => (h'.object id hid).trans (h.object id hid),
    fun e he hid => h'.live e (h.live e he hid) hid⟩

theorem PassStep.after_append (xs ys : List PassStep) :
    PassStep.after s (xs ++ ys) = PassStep.after (PassStep.after s xs) ys := List.foldl_append

theorem PassStep.mem_during_append {xs ys : List PassStep} :
    t ∈ PassStep.during s (xs ++ ys) →
      t ∈ PassStep.during s xs ∨ t ∈ PassStep.during (PassStep.after s xs) ys := by
  induction xs generalizing s with
  | nil => exact .inr
  | cons step xs ih =>
    intro h
    rcases List.mem_cons.mp h with rfl | h
    · exact .inl List.mem_cons_self
    · exact (ih h).imp_left (List.mem_cons_of_mem _)

theorem PassStep.after_mem_during (steps : List PassStep) :
    PassStep.after s steps ∈ PassStep.during s steps := by
  induction steps generalizing s with
  | nil => exact List.mem_singleton_self s
  | cons step steps ih => exact List.mem_cons_of_mem _ ih

theorem Passes.nil (h : s.Aligned bridgeId) : Passes bridgeId untouched s [] :=
  ⟨h, fun _ ht => List.mem_singleton.mp ht ▸ h.distinct,
    fun _ ht => List.mem_singleton.mp ht ▸ Buttons.Stays.refl⟩

theorem Passes.append {xs ys : List PassStep} (hxs : Passes bridgeId untouched s xs)
    (hys : Passes bridgeId untouched (PassStep.after s xs) ys) :
    Passes bridgeId untouched s (xs ++ ys) := by
  have hmid := hxs.stays _ (PassStep.after_mem_during xs)
  refine ⟨?_, fun t ht => ?_, fun t ht => ?_⟩
  · rw [PassStep.after_append]
    exact hys.aligned
  · exact (PassStep.mem_during_append ht).elim (hxs.distinct t) (hys.distinct t)
  · exact (PassStep.mem_during_append ht).elim (hxs.stays t) fun h => hmid.trans (hys.stays t h)

/-- The live entity of a command is that of its button. -/
theorem Buttons.Aligned.exists_button (h : s.Aligned bridgeId) {e : LiveEntity} {id : Int}
    (he : e ∈ s.platform) (hid : e.uniqueId = commandUniqueId bridgeId id) :
    ∃ b subentryId, Dict.get s.entities id = some b ∧ Dict.get s.placed id = some subentryId ∧
      e = ⟨b.object, commandUniqueId bridgeId id, subentryId⟩ := by
  rcases (h.platform e).mp he with rfl | ⟨id', b, subentryId, hb, hsub, rfl⟩
  · exact absurd hid.symm commandUniqueId_ne_cancelLearn
  · obtain rfl := commandUniqueId_inj hid
    exact ⟨b, subentryId, hb, hsub, rfl⟩

/-! ### An icon -/

theorem run_setIcon (s : Buttons) (commandId : Int) (icon : Str) :
    PassStep.run s (.setIcon commandId icon)
      = match Dict.get s.entities commandId with
        | none => s
        | some button =>
          { s with entities := Dict.set s.entities commandId { button with icon := icon } } := rfl

/-- Adopting an icon keeps the button the object that it is. -/
theorem object_setIcon (s : Buttons) (commandId : Int) (icon : Str) (id : Int) :
    (Dict.get (PassStep.run s (.setIcon commandId icon)).entities id).map CommandButton.object
      = (Dict.get s.entities id).map CommandButton.object := by
  rw [run_setIcon]
  split
  · rfl
  · rename_i button hbutton
    rw [Dict.get_set]
    split
    · rename_i hid
      rw [hid, hbutton]
      rfl
    · rfl

theorem kept_setIcon (s : Buttons) (commandId : Int) (icon : Str) :
    (PassStep.run s (.setIcon commandId icon)).placed = s.placed ∧
      (PassStep.run s (.setIcon commandId icon)).platform = s.platform ∧
      (PassStep.run s (.setIcon commandId icon)).allocated = s.allocated := by
  rw [run_setIcon]
  split <;> exact ⟨rfl, rfl, rfl⟩

theorem commandId_setIcon (h : s.Aligned bridgeId) {commandId : Int} {icon : Str} {id : Int}
    {b : CommandButton} (hb : Dict.get (PassStep.run s (.setIcon commandId icon)).entities id = some b) :
    b.commandId = id := by
  rw [run_setIcon] at hb
  split at hb
  · exact (h.owns id b hb).1
  · rename_i button hbutton
    rcases Dict.get_set_eq_some_iff.mp hb with ⟨rfl, rfl⟩ | ⟨-, hb⟩
    · exact (h.owns id button hbutton).1
    · exact (h.owns id b hb).1

/-- What is known of a button by its object is known of it with another icon. -/
theorem Buttons.Aligned.setIcon (h : s.Aligned bridgeId) (commandId : Int) (icon : Str) :
    (PassStep.run s (.setIcon commandId icon)).Aligned bridgeId := by
  obtain ⟨hplaced, hplatform, hallocated⟩ := kept_setIcon s commandId icon
  have hobject := object_setIcon s commandId icon
  have howns : ∀ id b, Dict.get (PassStep.run s (.setIcon commandId icon)).entities id = some b →
      b.commandId = id := fun _ _ => commandId_setIcon h
  generalize PassStep.run s (.setIcon commandId icon) = t at *
  -- the button under an id before and after, either of which gives the other
  have hafter : ∀ {id b}, Dict.get s.entities id = some b →
      ∃ b', Dict.get t.entities id = some b' ∧ b'.object = b.object := by
    intro id b hb
    have hmap := hobject id
    rw [hb, Option.map_some, Option.map_eq_some_iff] at hmap
    exact hmap
  have hbefore : ∀ {id b}, Dict.get t.entities id = some b →
      ∃ b', Dict.get s.entities id = some b' ∧ b'.object = b.object := by
    intro id b hb
    have hmap := (hobject id).symm
    rw [hb, Option.map_some, Option.map_eq_some_iff] at hmap
    exact hmap
  refine ⟨by rw [hplaced]; exact h.unique, fun id => ?_, fun id b hb => ?_, ?_, fun e => ?_, ?_, ?_⟩
  · rw [hplaced, h.keys id, ← Option.isSome_map, ← hobject id, Option.isSome_map]
  · obtain ⟨b', hb', hsame⟩ := hbefore hb
    obtain ⟨-, hpos, hlt⟩ := h.owns id b' hb'
    exact ⟨howns id b hb, by omega, by omega⟩
  · intro id id' b c hb hc hsame
    obtain ⟨b', hb', hbo⟩ := hbefore hb
    obtain ⟨c', hc', hco⟩ := hbefore hc
    exact h.apart id id' b' c' hb' hc' (by omega)
  · rw [hplatform, h.platform, hplaced]
    refine or_congr_right ⟨?_, ?_⟩
    · rintro ⟨id, b, subentryId, hb, hsub, rfl⟩
      obtain ⟨b', hb', hsame⟩ := hafter hb
      exact ⟨id, b', subentryId, hb', hsub, by rw [hsame]⟩
    · rintro ⟨id, b, subentryId, hb, hsub, rfl⟩
      obtain ⟨b', hb', hsame⟩ := hbefore hb
      exact ⟨id, b', subentryId, hb', hsub, by rw [hsame]⟩
  · rw [hplatform]
    exact h.distinct
  · rw [hallocated]
    exact h.allocated

theorem passes_setIcon (h : s.Aligned bridgeId) (commandId : Int) (icon : Str) :
    Passes bridgeId untouched s [.setIcon commandId icon] := by
  refine ⟨h.setIcon commandId icon, fun t ht => ?_, fun t ht => ?_⟩
  · rcases List.mem_cons.mp ht with rfl | ht
    · exact h.distinct
    · rw [List.mem_singleton.mp ht]
      exact (h.setIcon commandId icon).distinct
  · rcases List.mem_cons.mp ht with rfl | ht
    · exact .refl
    · rw [List.mem_singleton.mp ht]
      refine ⟨fun id _ => object_setIcon s commandId icon id, fun e he _ => ?_⟩
      rwa [(kept_setIcon s commandId icon).2.1]

/-! ### A removal -/

/-- The button that a removal takes, and the platform without it. -/
theorem platform_removal (s : Buttons) (commandId : Int) (e : LiveEntity) :
    e ∈ (PassStep.after s (removal commandId)).platform ↔
      e ∈ s.platform ∧ ∀ b, Dict.get s.entities commandId = some b → e.object ≠ b.object := by
  show e ∈ (PassStep.run (PassStep.run s (.pop commandId)) .remove).platform ↔ _
  cases hb : Dict.get s.entities commandId with
  | none => simp [PassStep.run, hb]
  | some b => simp [PassStep.run, hb]

theorem dicts_removal (s : Buttons) (commandId : Int) :
    (PassStep.after s (removal commandId)).placed = Dict.erase s.placed commandId ∧
      (PassStep.after s (removal commandId)).entities = Dict.erase s.entities commandId ∧
      (PassStep.after s (removal commandId)).allocated = s.allocated ∧
      (PassStep.after s (removal commandId)).platform.Sublist s.platform := by
  show (PassStep.run (PassStep.run s (.pop commandId)) .remove).placed = _ ∧
    (PassStep.run (PassStep.run s (.pop commandId)) .remove).entities = _ ∧
    (PassStep.run (PassStep.run s (.pop commandId)) .remove).allocated = _ ∧
    List.Sublist (PassStep.run (PassStep.run s (.pop commandId)) .remove).platform _
  cases hb : Dict.get s.entities commandId with
  | none => simp [PassStep.run, hb]
  | some b => simp [PassStep.run, hb]

theorem Buttons.Aligned.removal (h : s.Aligned bridgeId) (commandId : Int) :
    (PassStep.after s (RfCloner.removal commandId)).Aligned bridgeId := by
  have hmem := platform_removal s commandId
  obtain ⟨hplaced, hentities, hallocated, hsub⟩ := dicts_removal s commandId
  generalize PassStep.after s (RfCloner.removal commandId) = t at *
  have hget : ∀ {id b}, Dict.get t.entities id = some b ↔ id ≠ commandId ∧
      Dict.get s.entities id = some b := by
    intro id b
    rw [hentities, Dict.get_erase]
    split <;> simp_all
  refine ⟨?_, fun id => ?_, fun id b hb => ?_, ?_, fun e => ?_, ?_, ?_⟩
  · rw [hplaced]
    exact h.unique.erase commandId
  · rw [hplaced, hentities, Dict.get_erase, Dict.get_erase]
    split
    · rfl
    · exact h.keys id
  · rw [hallocated]
    exact h.owns id b (hget.mp hb).2
  · intro id id' b c hb hc
    exact h.apart id id' b c (hget.mp hb).2 (hget.mp hc).2
  · rw [hmem, h.platform]
    constructor
    · rintro ⟨rfl | ⟨id, b, subentryId, hb, hsubentry, rfl⟩, hother⟩
      · exact .inl rfl
      · have hid : id ≠ commandId := by
          rintro rfl
          exact hother b hb rfl
        refine .inr ⟨id, b, subentryId, hget.mpr ⟨hid, hb⟩, ?_, rfl⟩
        rw [hplaced, Dict.get_erase, if_neg hid]
        exact hsubentry
    · rintro (rfl | ⟨id, b, subentryId, hb, hsubentry, rfl⟩)
      · refine ⟨.inl rfl, fun b hb heq => ?_⟩
        have hpos := (h.owns commandId b hb).2.1
        exact absurd heq.symm (Nat.ne_of_gt hpos)
      · obtain ⟨hid, hb⟩ := hget.mp hb
        rw [hplaced, Dict.get_erase, if_neg hid] at hsubentry
        exact ⟨.inr ⟨id, b, subentryId, hb, hsubentry, rfl⟩,
          fun c hc heq => hid (h.apart id commandId b c hb hc heq)⟩
  · exact (hsub.map LiveEntity.uniqueId).nodup h.distinct
  · rw [hallocated]
    exact h.allocated

theorem passes_removal (h : s.Aligned bridgeId) {commandId : Int} (hother : ¬ untouched commandId) :
    Passes bridgeId untouched s (removal commandId) := by
  have haligned := h.removal commandId
  have hstays : s.Stays bridgeId untouched (PassStep.after s (removal commandId)) := by
    refine ⟨fun id hid => ?_, fun e he ⟨id, hid, hunique⟩ => ?_⟩
    · have hne : id ≠ commandId := fun heq => hother (heq.symm ▸ hid)
      rw [(dicts_removal s commandId).2.1, Dict.get_erase, if_neg hne]
    · obtain ⟨b, subentryId, hb, -, rfl⟩ := h.exists_button he hunique
      refine (platform_removal s commandId _).mpr ⟨he, fun c hc heq => ?_⟩
      exact hother (h.apart id commandId b c hb hc heq ▸ hid)
  have hpopped : s.Stays bridgeId untouched (PassStep.run s (.pop commandId)) := by
    refine ⟨fun id hid => ?_, fun e he _ => he⟩
    have hne : id ≠ commandId := fun heq => hother (heq.symm ▸ hid)
    show (Dict.get (Dict.erase s.entities commandId) id).map _ = _
    rw [Dict.get_erase, if_neg hne]
  refine ⟨haligned, fun t ht => ?_, fun t ht => ?_⟩
  · -- the pop leaves the platform to the removal
    rcases List.mem_cons.mp ht with rfl | ht
    · exact h.distinct
    rcases List.mem_cons.mp ht with rfl | ht
    · exact h.distinct
    · rw [List.mem_singleton.mp ht]
      exact haligned.distinct
  · rcases List.mem_cons.mp ht with rfl | ht
    · exact .refl
    rcases List.mem_cons.mp ht with rfl | ht
    · exact hpopped
    · rw [List.mem_singleton.mp ht]
      exact hstays

/-! ### An addition -/

section Addition

variable (commandId : Int) (name : Str) (target : Option RfTarget) (icon : Str)
  (subentryId : Option Str)

/-- The round of a command that the status has. -/
def additionSteps (bridgeId : Str) : List PassStep :=
  [.create commandId name target icon subentryId, .add bridgeId subentryId]

variable {commandId}

theorem Buttons.Aligned.addition (h : s.Aligned bridgeId)
    (hfresh : Dict.get s.placed commandId = none) :
    (PassStep.after s (additionSteps commandId name target icon subentryId bridgeId)).Aligned
      bridgeId := by
  have hnone : Dict.get s.entities commandId = none := by
    have hkeys := h.keys commandId
    rw [hfresh] at hkeys
    exact Option.isNone_iff_eq_none.mp (Option.isSome_eq_false_iff.mp hkeys.symm)
  have hout : ∀ {id b}, Dict.get s.entities id = some b → id ≠ commandId := by
    rintro id b hb rfl
    rw [hnone] at hb
    cases hb
  refine ⟨h.unique.set commandId subentryId, fun id => ?_, fun id b hb => ?_, ?_, fun e => ?_, ?_, ?_⟩
  · show (Dict.get (Dict.set s.placed commandId subentryId) id).isSome
      = (Dict.get (Dict.set s.entities commandId _) id).isSome
    rw [Dict.get_set, Dict.get_set]
    split
    · rfl
    · exact h.keys id
  · show b.commandId = id ∧ 0 < b.object ∧ b.object < s.allocated + 1
    rcases Dict.get_set_eq_some_iff.mp hb with ⟨rfl, rfl⟩ | ⟨-, hb⟩
    · exact ⟨rfl, h.allocated, Nat.lt_succ_self _⟩
    · obtain ⟨hid, hpos, hlt⟩ := h.owns id b hb
      exact ⟨hid, hpos, by omega⟩
  · intro id id' b c hb hc hsame
    rcases Dict.get_set_eq_some_iff.mp hb with ⟨rfl, rfl⟩ | ⟨-, hold⟩ <;>
      rcases Dict.get_set_eq_some_iff.mp hc with ⟨rfl, rfl⟩ | ⟨-, hold'⟩
    · rfl
    · have hlt := (h.owns id' c hold').2.2
      exact absurd hsame.symm (Nat.ne_of_lt hlt)
    · have hlt := (h.owns id b hold).2.2
      exact absurd hsame (Nat.ne_of_lt hlt)
    · exact h.apart id id' b c hold hold' hsame
  · show e ∈ s.platform ++ [_] ↔ _
    rw [List.mem_append, List.mem_singleton, h.platform]
    constructor
    · rintro ((rfl | ⟨id, b, sub, hb, hsub, rfl⟩) | rfl)
      · exact .inl rfl
      · exact .inr ⟨id, b, sub, Dict.get_set_eq_some_iff.mpr (.inr ⟨hout hb, hb⟩),
          Dict.get_set_eq_some_iff.mpr (.inr ⟨hout hb, hsub⟩), rfl⟩
      · exact .inr ⟨commandId, _, subentryId, Dict.get_set_eq_some_iff.mpr (.inl ⟨rfl, rfl⟩),
          Dict.get_set_eq_some_iff.mpr (.inl ⟨rfl, rfl⟩), rfl⟩
    · rintro (rfl | ⟨id, b, sub, hb, hsub, rfl⟩)
      · exact .inl (.inl rfl)
      · rcases Dict.get_set_eq_some_iff.mp hb with ⟨rfl, rfl⟩ | ⟨hid, hb⟩
        · obtain ⟨-, rfl⟩ := (Dict.get_set_eq_some_iff.mp hsub).resolve_right fun h => h.1 rfl
          exact .inr rfl
        · obtain ⟨-, hsub⟩ := (Dict.get_set_eq_some_iff.mp hsub).resolve_left fun h => hid h.1
          exact .inl (.inr ⟨id, b, sub, hb, hsub, rfl⟩)
  · show ((s.platform ++ [_]).map LiveEntity.uniqueId).Nodup
    rw [List.map_append, List.nodup_append]
    refine ⟨h.distinct, List.nodup_singleton _, fun u hu v hv heq => ?_⟩
    -- a live entity of the command would be in the dictionary
    obtain ⟨e, he, rfl⟩ := List.mem_map.mp hu
    rw [List.mem_singleton.mp hv] at heq
    obtain ⟨b, -, hb, -⟩ := h.exists_button he heq
    exact hout hb rfl
  · exact Nat.succ_pos _

theorem passes_addition (h : s.Aligned bridgeId) (hother : ¬ untouched commandId)
    (hfresh : Dict.get s.placed commandId = none) :
    Passes bridgeId untouched s (additionSteps commandId name target icon subentryId bridgeId) := by
  have haligned := h.addition name target icon subentryId hfresh
  have hobject : ∀ id, untouched id →
      (Dict.get (Dict.set s.entities commandId ⟨s.allocated, commandId, name, target, icon⟩) id).map
        CommandButton.object = (Dict.get s.entities id).map CommandButton.object := by
    intro id hid
    have hne : id ≠ commandId := fun heq => hother (heq.symm ▸ hid)
    rw [Dict.get_set, if_neg hne]
  refine ⟨haligned, fun t ht => ?_, fun t ht => ?_⟩
  · -- a button that has been made is not live before it is added
    rcases List.mem_cons.mp ht with rfl | ht
    · exact h.distinct
    rcases List.mem_cons.mp ht with rfl | ht
    · exact h.distinct
    · rw [List.mem_singleton.mp ht]
      exact haligned.distinct
  · rcases List.mem_cons.mp ht with rfl | ht
    · exact .refl
    rcases List.mem_cons.mp ht with rfl | ht
    · exact ⟨hobject, fun e he _ => he⟩
    · rw [List.mem_singleton.mp ht]
      exact ⟨hobject, fun e he _ => List.mem_append_left _ he⟩

variable (commandId) in
theorem get_placed_addition (s : Buttons) (bridgeId : Str) (id : Int) :
    Dict.get (PassStep.after s (additionSteps commandId name target icon subentryId bridgeId)).placed id
      = if id = commandId then some subentryId else Dict.get s.placed id :=
  Dict.get_set _ _ _ _

end Addition

end Rounds

/-! ## The loops -/

section Loops

variable {bridgeId : Str} {untouched : Int → Prop} {entry : ConfigEntry}
  {status : Option BridgeStatus} {s : Buttons}

variable (untouched) in
theorem passes_icons (icon : Int → Str) (ids : List Int) : ∀ s : Buttons, s.Aligned bridgeId →
    Passes bridgeId untouched s (ids.map fun id => .setIcon id (icon id)) ∧
      (PassStep.after s (ids.map fun id => .setIcon id (icon id))).placed = s.placed := by
  induction ids with
  | nil => exact fun s h => ⟨.nil h, rfl⟩
  | cons id ids ih =>
    intro s h
    have hfirst : Passes bridgeId untouched s [.setIcon id (icon id)] := passes_setIcon h id (icon id)
    obtain ⟨hrest, hplaced⟩ := ih _ hfirst.aligned
    exact ⟨hfirst.append hrest, hplaced.trans (kept_setIcon s id (icon id)).1⟩

theorem passes_removals (ids : List Int) : ∀ s : Buttons, s.Aligned bridgeId →
    (∀ id ∈ ids, ¬ untouched id) →
    Passes bridgeId untouched s (ids.flatMap removal) ∧
      ∀ id, Dict.get (PassStep.after s (ids.flatMap removal)).placed id
        = if id ∈ ids then none else Dict.get s.placed id := by
  induction ids with
  | nil => exact fun s h _ => ⟨.nil h, fun _ => rfl⟩
  | cons id ids ih =>
    intro s h hother
    have hfirst := passes_removal h (hother id List.mem_cons_self)
    obtain ⟨hrest, hplaced⟩ := ih _ hfirst.aligned fun id' hid =>
      hother id' (List.mem_cons_of_mem _ hid)
    refine ⟨hfirst.append hrest, fun id' => ?_⟩
    rw [List.flatMap_cons, PassStep.after_append, hplaced, (dicts_removal s id).1, Dict.get_erase]
    by_cases hid : id' = id
    · simp [hid]
    · simp [hid]

variable (entry) in
theorem passes_additions (ids : List Int) : ∀ s : Buttons, s.Aligned bridgeId → ids.Nodup →
    (∀ id ∈ ids, ¬ untouched id) → (∀ id ∈ ids, Dict.get s.placed id = none) →
    (∀ id ∈ ids, (status.bind (·.byId id)).isSome = true) →
    Passes bridgeId untouched s (ids.flatMap (addition bridgeId entry status)) ∧
      ∀ id, Dict.get (PassStep.after s (ids.flatMap (addition bridgeId entry status))).placed id
        = if id ∈ ids then some (assignedSubentry entry id) else Dict.get s.placed id := by
  induction ids with
  | nil => exact fun s h _ _ _ _ => ⟨.nil h, fun _ => rfl⟩
  | cons id ids ih =>
    intro s h hnodup hother hfresh hlisted
    obtain ⟨hout, hrest⟩ := List.nodup_cons.mp hnodup
    obtain ⟨command, hcommand⟩ := Option.isSome_iff_exists.mp (hlisted id List.mem_cons_self)
    have hsteps : addition bridgeId entry status id = additionSteps id command.name
        (assignedTarget entry id) (commandIcon entry id) (assignedSubentry entry id) bridgeId := by
      unfold addition
      rw [hcommand]
      rfl
    have hfirst := passes_addition command.name (assignedTarget entry id) (commandIcon entry id)
      (assignedSubentry entry id) h (hother id List.mem_cons_self) (hfresh id List.mem_cons_self)
    have hget := get_placed_addition id command.name (assignedTarget entry id)
      (commandIcon entry id) (assignedSubentry entry id) s bridgeId
    rw [← hsteps] at hfirst hget
    obtain ⟨hpasses, hplaced⟩ := ih _ hfirst.aligned hrest
      (fun id' hid => hother id' (List.mem_cons_of_mem _ hid))
      (fun id' hid => by
        have hne : id' ≠ id := fun heq => hout (heq ▸ hid)
        rw [hget, if_neg hne]
        exact hfresh id' (List.mem_cons_of_mem _ hid))
      fun id' hid => hlisted id' (List.mem_cons_of_mem _ hid)
    refine ⟨hfirst.append hpasses, fun id' => ?_⟩
    rw [List.flatMap_cons, PassStep.after_append, hplaced, hget]
    by_cases hid : id' = id
    · simp [hid]
    · simp [hid]

end Loops

/-! ## The pass -/

section Pass

variable {ρ : Type} {bridgeId : Str} {x : Reservations ρ} {s : Buttons}

theorem placing_eq_fresh {placed : List (Int × Option Str)} {id : Int} {sub : Option Str} :
    placing placed id sub = .fresh ↔ Dict.get placed id = none := by
  unfold placing
  split
  · rename_i hnone
    simp [hnone]
  · rename_i hsome
    split <;> simp [hsome]

theorem placing_eq_kept {placed : List (Int × Option Str)} {id : Int} {sub : Option Str} :
    placing placed id sub = .kept ↔ Dict.get placed id = some sub := by
  unfold placing
  split
  · rename_i hnone
    simp [hnone]
  · rename_i current hsome
    split
    · rename_i hmoved
      simp [hsome, hmoved]
    · rename_i hkept
      simp [hsome, not_not.mp hkept]

theorem mem_gone {id : Int} : id ∈ gone x s ↔
    (Dict.get s.placed id).isSome = true ∧ id ∉ x.asyncVisibleCommands.1 := by
  unfold gone wanted
  rw [List.mem_filter, ← Dict.get_isSome_iff, decide_eq_true_iff, mem_sortedSet]

theorem mem_standing {how : Placing} {id : Int} : id ∈ standing x s how ↔
    id ∈ x.asyncVisibleCommands.1 ∧
      placing s.placed id (assignedSubentry x.reconciler.entry id) = how := by
  unfold standing wanted
  rw [List.mem_filter, mem_sortedSet, decide_eq_true_iff]

theorem mem_fresh {id : Int} : id ∈ standing x s .fresh ↔
    id ∈ x.asyncVisibleCommands.1 ∧ Dict.get s.placed id = none :=
  mem_standing.trans (and_congr_right fun _ => placing_eq_fresh)

/-- The command is visible, and its button is where it should be. -/
def InPlace (x : Reservations ρ) (s : Buttons) (id : Int) : Prop :=
  id ∈ x.asyncVisibleCommands.1 ∧
    Dict.get s.placed id = some (assignedSubentry x.reconciler.entry id)

/-- What is settled is in none of the three lists. -/
theorem InPlace.not_mem {id : Int} (h : InPlace x s id) :
    id ∉ gone x s ∧ id ∉ standing x s .moved ∧ id ∉ standing x s .fresh := by
  refine ⟨fun hmem => (mem_gone.mp hmem).2 h.1, fun hmem => ?_, fun hmem => ?_⟩
  · have hkept := placing_eq_kept.mpr h.2
    rw [(mem_standing.mp hmem).2] at hkept
    cases hkept
  · have hnone := (mem_fresh.mp hmem).2
    rw [h.2] at hnone
    cases hnone

theorem nodup_standing : (standing x s .moved ++ standing x s .fresh).Nodup := by
  refine List.nodup_append.mpr ⟨(nodup_sortedSet _).filter _, (nodup_sortedSet _).filter _, ?_⟩
  rintro id hmoved _ hfresh rfl
  have hstanding := (mem_standing.mp hmoved).2
  rw [(mem_standing.mp hfresh).2] at hstanding
  cases hstanding

/-- The removals and the additions together leave the visible commands, where they should be. -/
theorem placed_eq (id : Int) :
    (if id ∈ standing x s .moved ++ standing x s .fresh then
        some (assignedSubentry x.reconciler.entry id)
      else if id ∈ gone x s ++ standing x s .moved then none
      else Dict.get s.placed id)
      = if id ∈ x.asyncVisibleCommands.1 then some (assignedSubentry x.reconciler.entry id)
        else none := by
  by_cases hvisible : id ∈ x.asyncVisibleCommands.1
  · have hgone : id ∉ gone x s := fun hmem => (mem_gone.mp hmem).2 hvisible
    cases hplacing : placing s.placed id (assignedSubentry x.reconciler.entry id) with
    | fresh => simp [mem_standing, hvisible, hplacing]
    | moved => simp [mem_standing, hvisible, hplacing]
    | kept => simp [mem_standing, hvisible, hplacing, hgone, placing_eq_kept.mp hplacing]
  · cases hplaced : Dict.get s.placed id with
    | none => simp [mem_standing, hvisible]
    | some subentryId =>
      have hgone : id ∈ gone x s := mem_gone.mpr ⟨by rw [hplaced]; rfl, hvisible⟩
      simp [mem_standing, hvisible, hgone]

/-- A command that is visible is in the status. -/
theorem byId_of_visible {id : Int} (h : id ∈ x.asyncVisibleCommands.1) :
    (x.data.bind (·.byId id)).isSome = true := by
  obtain ⟨status, hdata, -, -, command, hcommand, hid, -⟩ :=
    Reservations.mem_asyncVisibleCommands.mp h
  rw [hdata, Option.bind_some]
  unfold BridgeStatus.byId
  rw [List.find?_isSome]
  exact ⟨command, List.mem_reverse.mpr hcommand, by simpa using hid⟩

/-- **A pass**, from between rounds to between rounds. -/
theorem passes_asyncApply (h : s.Aligned bridgeId) :
    Passes bridgeId (InPlace x s) s (passSteps x s bridgeId) ∧
      ∀ id, Dict.get (asyncApply bridgeId x s).placed id
        = if id ∈ x.asyncVisibleCommands.1 then some (assignedSubentry x.reconciler.entry id)
          else none := by
  have hremoved : ∀ id ∈ gone x s ++ standing x s .moved, ¬ InPlace x s id := fun id hmem hsettled =>
    (List.mem_append.mp hmem).elim hsettled.not_mem.1 hsettled.not_mem.2.1
  have hadded : ∀ id ∈ standing x s .moved ++ standing x s .fresh, ¬ InPlace x s id :=
    fun id hmem hsettled => (List.mem_append.mp hmem).elim hsettled.not_mem.2.1 hsettled.not_mem.2.2
  have hlisted : ∀ id ∈ standing x s .moved ++ standing x s .fresh,
      (x.data.bind (·.byId id)).isSome = true := by
    intro id hmem
    rcases List.mem_append.mp hmem with hmem | hmem
    · exact byId_of_visible (mem_standing.mp hmem).1
    · exact byId_of_visible (mem_standing.mp hmem).1
  obtain ⟨hicons, hplaced₁⟩ := passes_icons (InPlace x s)
    (commandIcon x.reconciler.entry) (standing x s .kept) s h
  obtain ⟨hremovals, hplaced₂⟩ := passes_removals _ _ hicons.aligned hremoved
  simp only [hplaced₁] at hplaced₂
  -- by the time of the additions, nothing of what they add is placed
  have hvacant : ∀ id ∈ standing x s .moved ++ standing x s .fresh,
      (if id ∈ gone x s ++ standing x s .moved then none else Dict.get s.placed id) = none := by
    intro id hmem
    rcases List.mem_append.mp hmem with hmem | hmem
    · rw [if_pos (List.mem_append_right _ hmem)]
    · rw [(mem_fresh.mp hmem).2, ite_self]
  obtain ⟨hadditions, hplaced₃⟩ := passes_additions x.reconciler.entry _ _
    hremovals.aligned nodup_standing hadded (fun id hmem => (hplaced₂ id).trans (hvacant id hmem))
    hlisted
  refine ⟨hicons.append (hremovals.append hadditions), fun id => ?_⟩
  unfold asyncApply passSteps
  rw [PassStep.after_append, PassStep.after_append, hplaced₃, hplaced₂, placed_eq]

/-- Who claims what decides what is visible. -/
theorem visible_congr {y : Reservations ρ} (h : Reservations.SameClaims x y) (id : Int) :
    id ∈ y.asyncVisibleCommands.1 ↔ id ∈ x.asyncVisibleCommands.1 := by
  rw [Reservations.mem_asyncVisibleCommands, Reservations.mem_asyncVisibleCommands, h.data,
    h.identityMismatch]
  simp only [h.claimed]

/-- **A second pass has nothing to move.** -/
theorem passSteps_again {y : Reservations ρ} (hsame : Reservations.SameClaims x y) {t : Buttons}
    (hplaced : ∀ id, Dict.get t.placed id = if id ∈ x.asyncVisibleCommands.1 then
      some (assignedSubentry x.reconciler.entry id) else none) :
    passSteps y t bridgeId
      = (standing y t .kept).map fun id => .setIcon id (commandIcon y.reconciler.entry id) := by
  have hkept : ∀ id ∈ y.asyncVisibleCommands.1,
      placing t.placed id (assignedSubentry y.reconciler.entry id) = .kept := by
    intro id hid
    rw [placing_eq_kept, hplaced, if_pos ((visible_congr hsame id).mp hid), hsame.entry]
  have hnone : ∀ how, how ≠ .kept → standing y t how = [] := by
    intro how hne
    refine List.eq_nil_iff_forall_not_mem.mpr fun id hmem => ?_
    obtain ⟨hid, hhow⟩ := mem_standing.mp hmem
    exact hne (hhow.symm.trans (hkept id hid))
  have hgone : gone y t = [] := by
    refine List.eq_nil_iff_forall_not_mem.mpr fun id hmem => ?_
    obtain ⟨hsome, hout⟩ := mem_gone.mp hmem
    rw [hplaced, if_neg ((visible_congr hsame id).not.mp hout)] at hsome
    cases hsome
  unfold passSteps
  rw [hnone .moved (by decide), hnone .fresh (by decide), hgone]
  simp

/-- The live entities of a command are the one of its button. -/
theorem Buttons.Aligned.live_eq (h : s.Aligned bridgeId) {id : Int} {subentryId : Option Str}
    (hplaced : Dict.get s.placed id = some subentryId) :
    ∃ b, Dict.get s.entities id = some b ∧
      s.platform.filter (fun e => e.uniqueId = commandUniqueId bridgeId id)
        = [⟨b.object, commandUniqueId bridgeId id, subentryId⟩] := by
  have hkeys := h.keys id
  rw [hplaced] at hkeys
  obtain ⟨b, hb⟩ := Option.isSome_iff_exists.mp hkeys.symm
  refine ⟨b, hb, ?_⟩
  have hmem := (h.platform _).mpr (.inr ⟨id, b, subentryId, hb, hplaced, rfl⟩)
  generalize hlive : s.platform.filter (fun e => e.uniqueId = commandUniqueId bridgeId id) = live
  have hall : ∀ e, e ∈ live ↔ e = ⟨b.object, commandUniqueId bridgeId id, subentryId⟩ := by
    intro e
    rw [← hlive, List.mem_filter, decide_eq_true_iff]
    constructor
    · rintro ⟨he, hunique⟩
      obtain ⟨c, sub, hc, hsub, rfl⟩ := h.exists_button he hunique
      rw [hb] at hc
      rw [hplaced] at hsub
      rw [Option.some.inj hc, Option.some.inj hsub]
    · rintro rfl
      exact ⟨hmem, rfl⟩
  have hnodup : live.Nodup := by
    rw [← hlive]
    exact (List.Nodup.of_map _ h.distinct).filter _
  exact List.perm_singleton.mp ((List.perm_ext_iff_of_nodup hnodup (List.nodup_singleton _)).mpr
    fun e => (hall e).trans List.mem_singleton.symm)

/-- The state that `async_setup_entry` starts from. -/
theorem aligned_setup (bridgeId : Str) : (Buttons.setup bridgeId).Aligned bridgeId where
  unique := List.nodup_nil
  keys _ := rfl
  owns := nofun
  apart := nofun
  platform e := by
    show e ∈ [cancelLearn bridgeId] ↔ _
    rw [List.mem_singleton]
    exact ⟨.inl, fun h => h.resolve_right nofun⟩
  distinct := List.nodup_singleton _
  allocated := Nat.one_pos

/-- **Whatever passes run**, the dictionaries go on agreeing with the platform. -/
theorem aligned_passes (bridgeId : Str) (inputs : List (Reservations ρ)) (h : s.Aligned bridgeId) :
    (inputs.foldl (fun s x => asyncApply bridgeId x s) s).Aligned bridgeId := by
  induction inputs generalizing s with
  | nil => exact h
  | cons x inputs ih => exact ih (passes_asyncApply h).1.aligned

end Pass

/-- **The placement of the buttons converges.**  From any state in which the dictionaries agree, a
    pass ends with the visible commands, each placed where what is stored of it puts it, and live
    once there, as its button.  On the way no two live entities have one unique id, and the button of
    a command that was in place stays live and the same object.  A second pass moves nothing. -/
theorem placement_converges {ρ : Type} (bridgeId : Str) (x : Reservations ρ) (s : Buttons)
    (h : s.Aligned bridgeId) :
    (∀ id ∉ x.asyncVisibleCommands.1, Dict.get (asyncApply bridgeId x s).placed id = none ∧
      Dict.get (asyncApply bridgeId x s).entities id = none) ∧
    (∀ id ∈ x.asyncVisibleCommands.1, ∃ place b, BelongsUnder x.reconciler.entry id place ∧
      Dict.get (asyncApply bridgeId x s).placed id = some place ∧
      Dict.get (asyncApply bridgeId x s).entities id = some b ∧ b.commandId = id ∧
      (asyncApply bridgeId x s).platform.filter (fun e => e.uniqueId = commandUniqueId bridgeId id)
        = [⟨b.object, commandUniqueId bridgeId id, place⟩]) ∧
    (∀ t ∈ PassStep.during s (passSteps x s bridgeId), (t.platform.map LiveEntity.uniqueId).Nodup) ∧
    (∀ id ∈ x.asyncVisibleCommands.1, ∀ place, BelongsUnder x.reconciler.entry id place →
      Dict.get s.placed id = some place →
      ∃ b, Dict.get s.entities id = some b ∧
        ∀ t ∈ PassStep.during s (passSteps x s bridgeId),
          (Dict.get t.entities id).map CommandButton.object = some b.object ∧
          ⟨b.object, commandUniqueId bridgeId id, place⟩ ∈ t.platform) ∧
    (asyncApply bridgeId x s).Aligned bridgeId ∧
    ∀ step ∈ passSteps x.asyncVisibleCommands.2 (asyncApply bridgeId x s) bridgeId,
      ∃ id icon, step = .setIcon id icon := by
  obtain ⟨hpasses, hplaced⟩ := passes_asyncApply (x := x) h
  have haligned : (asyncApply bridgeId x s).Aligned bridgeId := hpasses.aligned
  refine ⟨fun id hid => ?_, fun id hid => ?_, hpasses.distinct, fun id hid place hplace hin => ?_,
    haligned, fun step hstep => ?_⟩
  · have hnone := (hplaced id).trans (if_neg hid)
    have hkeys := haligned.keys id
    rw [hnone] at hkeys
    exact ⟨hnone, Option.isNone_iff_eq_none.mp (Option.not_isSome _ ▸ by rw [← hkeys]; rfl)⟩
  · have hsome := (hplaced id).trans (if_pos hid)
    obtain ⟨b, hb, hlive⟩ := haligned.live_eq hsome
    exact ⟨_, b, belongsUnder_iff.mpr rfl, hsome, hb, (haligned.owns id b hb).1, hlive⟩
  · obtain rfl := belongsUnder_iff.mp hplace
    obtain ⟨b, hb, -⟩ := h.live_eq hin
    refine ⟨b, hb, fun t ht => ?_⟩
    obtain ⟨hobject, hlive⟩ := hpasses.stays t ht
    refine ⟨?_, hlive _ ((h.platform _).mpr (.inr ⟨id, b, _, hb, hin, rfl⟩)) ⟨id, ⟨hid, hin⟩, rfl⟩⟩
    rw [hobject id ⟨hid, hin⟩, hb]
    rfl
  · rw [passSteps_again (Reservations.sameClaims_asyncVisibleCommands x) hplaced] at hstep
    obtain ⟨id, -, rfl⟩ := List.mem_map.mp hstep
    exact ⟨id, _, rfl⟩

/-- The subentry of a target. -/
def targetNamed (subentryId targetId : Str) : ConfigSubentry :=
  ⟨subentryId, subentryTypeTarget, str "Remote", [(confTargetId, .str targetId)]⟩

/-- Commands of one bridge, some of them assigned to the targets `t` and `u`. -/
def organised (assignments : List (Str × Str)) (commands : List CommandInfo) :
    Reservations { l : List RegistryEntry // (l.map RegistryEntry.entityId).Nodup } where
  reconciler := .new
    { entryId := str "e"
      uniqueId := some BridgeId.zero.hex
      options := [(optCommands, .dict (assignments.map fun (commandId, targetId) =>
        (commandId, .dict [(confTargetId, .str targetId)])))]
      subentries := [targetNamed (str "s") (str "t"), targetNamed (str "v") (str "u")] }
    ⟨[], List.nodup_nil⟩
  lapsesAt _ := 0
  data := some (Reservations.statusListing 1 commands)
  now := 0

/-- The buttons of three commands of one target. -/
def placedButtons : Buttons :=
  asyncApply BridgeId.zero.hex
    (organised [(str "1", str "t"), (str "2", str "t"), (str "3", str "t")]
      [⟨1, str "on", 3⟩, ⟨2, str "off", 3⟩, ⟨3, str "dim", 3⟩])
    (.setup BridgeId.zero.hex)

/-- The second command has been assigned to the other target, the third deleted, and a fourth learned
    that names a target which does not exist. -/
def reorganised :
    Reservations { l : List RegistryEntry // (l.map RegistryEntry.entityId).Nodup } :=
  organised [(str "1", str "t"), (str "2", str "u"), (str "4", str "w")]
    [⟨1, str "on", 3⟩, ⟨2, str "off", 3⟩, ⟨4, str "up", 3⟩]

/-- One command is kept, one moved, one gone and one fresh. -/
theorem placement_reorganised :
    let s := asyncApply BridgeId.zero.hex reorganised placedButtons
    Dict.get s.placed 1 = some (some (str "s")) ∧ Dict.get s.placed 2 = some (some (str "v")) ∧
      Dict.get s.placed 3 = none ∧ Dict.get s.placed 4 = some none ∧
      (Dict.get placedButtons.entities 1).isSome = true ∧
      (Dict.get s.entities 1).map CommandButton.object
        = (Dict.get placedButtons.entities 1).map CommandButton.object := by
  intro s
  obtain ⟨hpasses, hbefore⟩ := passes_asyncApply (x := organised
    [(str "1", str "t"), (str "2", str "t"), (str "3", str "t")]
    [⟨1, str "on", 3⟩, ⟨2, str "off", 3⟩, ⟨3, str "dim", 3⟩]) (aligned_setup BridgeId.zero.hex)
  obtain ⟨hgone, hplaced, -, hkept, -, -⟩ :=
    placement_converges BridgeId.zero.hex reorganised placedButtons hpasses.aligned
  -- a button belongs in one place, so that is where it has been placed
  have hput : ∀ {id place}, id ∈ reorganised.asyncVisibleCommands.1 →
      BelongsUnder reorganised.reconciler.entry id place → Dict.get s.placed id = some place := by
    intro id place hid hplace
    obtain ⟨place', b, hplace', hget, -⟩ := hplaced id hid
    rw [hget, belongsUnder_iff.mp hplace', belongsUnder_iff.mp hplace]
  have hone : BelongsUnder reorganised.reconciler.entry 1 (some (str "s")) :=
    belongsUnder_iff.mpr (by decide +kernel)
  obtain ⟨b, hb, hstays⟩ := hkept 1 (by decide +kernel) _ hone
    ((hbefore 1).trans (by decide +kernel))
  refine ⟨hput (by decide +kernel) hone,
    hput (by decide +kernel) (belongsUnder_iff.mpr (by decide +kernel)),
    (hgone 3 (by decide +kernel)).1,
    hput (by decide +kernel) (belongsUnder_iff.mpr (by decide +kernel)), ?_, ?_⟩
  · rw [hb]
    rfl
  · rw [hb]
    exact (hstays s (PassStep.after_mem_during _)).1

end RfCloner
