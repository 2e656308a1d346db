/-
  The flows that record where a command belongs (`config_flow.py`, `icons_suggested.py`).

  There are two: the last step of a learn, reached from the options menu or from the `Learn command`
  action, and the edit of a command in the options flow.  Both end in one update of the entry's
  options under a command id.  The id of a learn comes from the device's answer, that of an edit
  from the listing the coordinator holds; nothing compares the bridge they belong to with the
  entry's.
-/
import RfCloner.Hass.Mirror

namespace RfCloner

/-! ## Text -/

/-- Whitespace of `str.strip` and `str.split`. -/
def isPySpace (c : Char) : Bool :=
  c == ' ' || (decide (9 ≤ c.toNat) && decide (c.toNat ≤ 13)) ||
    (decide (28 ≤ c.toNat) && decide (c.toNat ≤ 31)) || decide (c.toNat ∈ Decimal.scriptSpaces)

/-- `s.strip()`. -/
def strip (s : Str) : Str := (((s.dropWhile isPySpace).reverse).dropWhile isPySpace).reverse

/-- `s or None`. -/
def orNone (s : Str) : Option Str := if s.isEmpty then none else some s

theorem orNone_ne (s : Str) : orNone s ≠ some [] := by
  unfold orNone
  split
  · exact fun h => nomatch h
  · rename_i hs
    intro h
    obtain rfl := Option.some.inj h
    exact hs rfl

/-! ## Suggested icons -/

/-- `DEFAULT_COMMAND_ICON`. -/
def defaultCommandIcon : Str := str "mdi:remote"

/-- `_BY_TARGET_TYPE`. -/
def byTargetType : List (Str × Str) :=
  [(str "fan", str "mdi:fan"), (str "gate", str "mdi:gate"), (str "light", str "mdi:lightbulb"),
    (str "cover", str "mdi:window-shutter"), (str "tv", str "mdi:television"),
    (str "air_conditioner", str "mdi:air-conditioner")]

/-- `_BY_KEYWORD`. -/
def byKeyword : List (List Str × Str) :=
  [([str "speed up", str "speedup", str "faster", str "speed plus"], str "mdi:fan-plus"),
    ([str "speed down", str "speeddown", str "slower", str "speed minus"], str "mdi:fan-minus"),
    ([str "speed 1", str "speed1", str "low"], str "mdi:fan-speed-1"),
    ([str "speed 2", str "speed2", str "medium", str "med"], str "mdi:fan-speed-2"),
    ([str "speed 3", str "speed3", str "high", str "max"], str "mdi:fan-speed-3"),
    ([str "vol up", str "volume up", str "vol plus"], str "mdi:volume-plus"),
    ([str "vol down", str "volume down", str "vol minus"], str "mdi:volume-minus"),
    ([str "light", str "lamp", str "luz"], str "mdi:lightbulb"),
    ([str "power", str "on off", str "onoff", str "toggle"], str "mdi:power"),
    ([str "open", str "abrir"], str "mdi:gate-open"),
    ([str "close", str "shut", str "fechar"], str "mdi:gate"),
    ([str "stop", str "halt", str "parar"], str "mdi:stop"),
    ([str "up", str "raise", str "subir"], str "mdi:arrow-up"),
    ([str "down", str "lower", str "descer"], str "mdi:arrow-down"),
    ([str "fan", str "ventilador"], str "mdi:fan"),
    ([str "cool", str "cold"], str "mdi:snowflake"),
    ([str "heat", str "warm"], str "mdi:fire"),
    ([str "swing", str "oscillate"], str "mdi:swap-vertical"),
    ([str "play"], str "mdi:play"),
    ([str "pause"], str "mdi:pause")]

/-- `_COVER_OVERRIDES`. -/
def coverOverrides : List (Str × Str) :=
  [(str "mdi:gate-open", str "mdi:window-shutter-open"), (str "mdi:gate", str "mdi:window-shutter")]

/-- `_normalise`.  A command name is ASCII, so lower case is too. -/
def normalise (name : Str) : Str :=
  let folded := (name.map Char.toLower).map fun c => if c ∈ ['_', '-', '.'] then ' ' else c
  let words := (folded.splitOnP isPySpace).filter fun word => !word.isEmpty
  ' ' :: [' '].intercalate words ++ [' ']

/-- `f" {keyword} " in haystack`. -/
def hasKeyword (haystack keyword : Str) : Bool :=
  haystack.tails.any fun tail => (' ' :: keyword ++ [' ']).isPrefixOf tail

/-- `suggest_icon`. -/
def suggestIcon (commandName targetType : Str) : Str :=
  match byKeyword.find? fun row => row.1.any (hasKeyword (normalise commandName)) with
  | some (_, icon) =>
    -- the icons for opening and closing are a gate's, and a cover has its own
    if targetType = str "cover" then (Dict.get coverOverrides icon).getD icon else icon
  | none => (Dict.get byTargetType targetType).getD defaultCommandIcon

/-- **There is always something to suggest**: no icon of the tables is empty. -/
theorem suggestIcon_ne_nil (commandName targetType : Str) : suggestIcon commandName targetType ≠ [] := by
  have hrows : ∀ row ∈ byKeyword, row.2 ≠ [] := by decide
  have hcovers : ∀ p ∈ coverOverrides, p.2 ≠ [] := by decide
  have htypes : ∀ p ∈ byTargetType, p.2 ≠ [] := by decide
  unfold suggestIcon
  split
  · rename_i keywords icon hfind
    have hicon : icon ≠ [] := hrows _ (List.mem_of_find?_eq_some hfind)
    split
    · cases hget : Dict.get coverOverrides icon with
      | none => exact hicon
      | some cover => exact hcovers _ (Dict.mem_of_get hget)
    · exact hicon
  · cases hget : Dict.get byTargetType targetType with
    | none => exact List.cons_ne_nil _ _
    | some icon => exact htypes _ (Dict.mem_of_get hget)

/-! ## Recording -/

/-- `options_with` for one command.  `str` raises for an id of too many digits, and then nothing is
    updated. -/
def ConfigEntry.withMeta (entry : ConfigEntry) (commandId : Int) (m : CommandMeta) :
    Option ConfigEntry :=
  if m.isEmpty ∨ commandId.natAbs < 10 ^ Decimal.maxDigits then
    some { entry with options := optionsWith entry [(commandId, m)] }
  else none

/-- What `meta_for` reads for metadata that was recorded. -/
def CommandMeta.recorded (m : CommandMeta) : Option CommandMeta := if m.isEmpty then none else some m

section Recording

variable {entry entry' : ConfigEntry} {commandId : Int} {m : CommandMeta}

/-- **What is recorded for a command is read back, and nothing else changes.** -/
theorem metaFor_withMeta (hm : m.Readable) (h : entry.withMeta commandId m = some entry') (id : Int) :
    metaFor entry' id = if id = commandId then m.recorded else metaFor entry id := by
  unfold ConfigEntry.withMeta at h
  split at h
  · rename_i hok
    obtain rfl := Option.some.inj h
    have hupdates : Dict.Unique [(commandId, m)] := List.nodup_singleton _
    have hget (id : Int) : Dict.get [(commandId, m)] id = if commandId = id then some m else none := by
      rw [Dict.get_cons, Dict.get_nil]
    rw [metaFor_optionsWith hupdates, hget]
    · by_cases hid : commandId = id
      · rw [if_pos hid, if_pos hid.symm]
        rfl
      · rw [if_neg hid, if_neg (Ne.symm hid)]
    · intro id' m' hm' hempty
      rw [hget] at hm'
      split at hm'
      · rename_i hid
        obtain rfl := Option.some.inj hm'
        subst hid
        refine ⟨hok.resolve_left ?_, hm, hempty⟩
        rw [hempty]
        exact Bool.false_ne_true
      · cases hm'
  · cases h

theorem subentries_withMeta (h : entry.withMeta commandId m = some entry') :
    entry'.subentries = entry.subentries ∧ entry'.uniqueId = entry.uniqueId ∧
      entry'.entryId = entry.entryId := by
  unfold ConfigEntry.withMeta at h
  split at h
  · obtain rfl := Option.some.inj h
    exact ⟨rfl, rfl, rfl⟩
  · cases h

/-- A target is found under its own id, which is not empty. -/
theorem get_targets {targetId : Str} {target : RfTarget}
    (h : Dict.get (targets entry) targetId = some target) :
    target.targetId = targetId ∧ targetId ≠ [] := by
  unfold targets at h
  obtain ⟨t, ht, heq⟩ := List.mem_map.mp (Dict.mem_of_get_ofPairs h)
  obtain ⟨rfl, rfl⟩ := Prod.mk.inj heq
  obtain ⟨subentry, -, hfrom⟩ := List.mem_filterMap.mp ht
  refine ⟨rfl, ?_⟩
  unfold RfTarget.fromSubentry at hfrom
  split at hfrom
  · cases hfrom
  · obtain ⟨id, hid, rfl⟩ := Option.map_eq_some_iff.mp hfrom
    rintro rfl
    exact nonEmptyStr_ne _ hid

end Recording

/-! ## Names -/

/-- `NAME_MAX_LENGTH`. -/
def nameMaxLength : Nat := 23

/-- `NAME_ALLOWED_EXTRA`. -/
def nameAllowedExtra : Str := str "_-."

/-- `validate_command_name`: the key of what is wrong with a name, if anything is. -/
def validateCommandName (name : Str) : Option Str :=
  if name.isEmpty then some (str "name_empty")
  else if name.length > nameMaxLength then some (str "name_too_long")
  else if !name.all fun c => decide (c.toNat < 128) && (c.isAlphanum || decide (c ∈ nameAllowedExtra))
    then some (str "name_invalid")
  else none

namespace BridgeStatus

variable (status : BridgeStatus)

/-- `by_id`: of two rows of one id the last counts. -/
def byId (commandId : Int) : Option CommandInfo :=
  status.commands.reverse.find? fun command => command.commandId = commandId

/-- `by_name`. -/
def byName (name : Str) : Option CommandInfo :=
  status.commands.reverse.find? fun command => command.name = name

/-- `is_full`. -/
def isFull : Bool := decide (status.maxCommands > 0) && decide (status.count ≥ status.maxCommands)

/-- `accepts_mutations`. -/
def acceptsMutations : Bool := !status.readOnly && !status.restoreIncomplete

end BridgeStatus

/-! ## Learning -/

/-- `UNASSIGNED`. -/
def unassigned : Str := str "__unassigned__"

/-- What the user submits in the form of a learn. -/
structure LearnInput where
  name : Str
  targetId : Option Str
  icon : Option Str

/-- `LearnCommandSteps`, once the command is named. -/
structure LearnCommandSteps where
  name : Str
  icon : Option {s : Str // s ≠ []}
  targetId : Option Str

/-- How a step of a flow ends: it is aborted, it shows its form again, or it goes on. -/
inductive FlowResult (α : Type) where
  | abort (reason : Str)
  | form (field problem : Str)
  | next (value : α)

/-- `LearnOutcome`. -/
structure LearnOutcome where
  succeeded : Bool
  commandId : Option Int
  name : Str
  detail : Str

namespace LearnCommandSteps

/-- `async_step_learn_command`, on what the coordinator holds. -/
def asyncStepLearnCommand (data : Option BridgeStatus) (input : LearnInput) :
    FlowResult LearnCommandSteps :=
  match data with
  | none => .abort (str "not_loaded")
  | some status =>
    if !status.acceptsMutations then .abort (str "not_writable")
    else if status.isFull then .abort (str "registry_full")
    else
      match validateCommandName (strip input.name) with
      | some problem => .form (str "name") problem
      | none =>
        if (status.byName (strip input.name)).isSome then .form (str "name") (str "name_taken")
        else
          let chosen := input.targetId.getD unassigned
          .next
            { name := strip input.name
              icon := if h : strip (input.icon.getD []) = [] then none else some ⟨_, h⟩
              targetId := if chosen = unassigned then none else some chosen }

/-- What `async_step_learned` records for the command that was learned. -/
def placement (steps : LearnCommandSteps) (entry : ConfigEntry) (outcome : LearnOutcome) :
    CommandMeta :=
  let target := Dict.get (targets entry) (steps.targetId.getD [])
  { targetId := target.map RfTarget.targetId
    icon := some ((steps.icon.map Subtype.val).getD
      (suggestIcon outcome.name ((target.map RfTarget.targetType).getD targetTypeGeneric))) }

theorem readable_placement (steps : LearnCommandSteps) (entry : ConfigEntry) (outcome : LearnOutcome) :
    (steps.placement entry outcome).Readable := by
  unfold placement
  constructor
  · intro h
    obtain ⟨target, hget, hid⟩ := Option.map_eq_some_iff.mp h
    obtain ⟨hsame, hne⟩ := get_targets hget
    exact hne (hsame.symm.trans hid)
  · intro h
    have hicon := Option.some.inj h
    cases hi : steps.icon with
    | none =>
      rw [hi] at hicon
      exact suggestIcon_ne_nil _ _ hicon
    | some icon =>
      rw [hi] at hicon
      exact icon.2 hicon

end LearnCommandSteps

/-! ## Editing -/

/-- What the user submits in the form of a command.  The selector offers `UNASSIGNED` and the ids of
    targets, none of which is empty. -/
structure CommandInput where
  name : Str
  targetId : Option {s : Str // s ≠ []}
  icon : Option Str
  delete : Bool

/-- What `async_step_command` records for the command that was edited. -/
def CommandInput.placement (input : CommandInput) : CommandMeta :=
  let chosen := (input.targetId.map Subtype.val).getD unassigned
  { targetId := if chosen = unassigned then none else some chosen
    icon := orNone (strip (input.icon.getD [])) }

theorem CommandInput.readable_placement (input : CommandInput) : input.placement.Readable := by
  constructor
  · intro h
    change (if (input.targetId.map Subtype.val).getD unassigned = unassigned then none
      else some ((input.targetId.map Subtype.val).getD unassigned)) = some [] at h
    split at h
    · cases h
    · cases htarget : input.targetId with
      | none =>
        rw [htarget] at h
        cases h
      | some target =>
        rw [htarget] at h
        exact target.2 (Option.some.inj h)
  · exact orNone_ne _

/-- `async_step_command` up to the update of the options: the command, if the step gets that far.
    `renamed` is what becomes of the rename, where one is needed. -/
def CommandInput.accepted (input : CommandInput) (data : Option BridgeStatus)
    (commandId : Option Int) (renamed : Bool) : FlowResult Int :=
  match data, commandId with
  | some status, some commandId =>
    match status.byId commandId with
    | none => .abort (str "unknown_command")
    | some command =>
      if input.delete then .abort (str "confirm_delete")
      else
        let name := strip input.name
        match validateCommandName name with
        | some problem => .form (str "name") problem
        | none =>
          if (status.byName name).any fun takenBy => takenBy.commandId != commandId then
            .form (str "name") (str "name_taken")
          else if name ≠ command.name ∧ !status.acceptsMutations then .abort (str "not_writable")
          else if name ≠ command.name ∧ !renamed then .form (str "base") (str "rename_failed")
          else .next commandId
  | _, _ => .abort (str "not_loaded")

/-! ## Flow steps on the entry -/

/-- The end of a flow: a learn that came to an outcome or raised, or an edit that was submitted. -/
inductive FlowStep
  | learned (steps : LearnCommandSteps) (result : Except Unit LearnOutcome)
  | command (commandId : Option Int) (input : CommandInput) (renamed : Bool)

namespace FlowStep

/-- The command the step is for, and what it records for it. -/
def places (data : Option BridgeStatus) (entry : ConfigEntry) : FlowStep → Option (Int × CommandMeta)
  | learned _ (.error _) => none
  | learned steps (.ok outcome) =>
    if outcome.succeeded then
      outcome.commandId.map fun commandId => (commandId, steps.placement entry outcome)
    else none
  | command commandId input renamed =>
    match input.accepted data commandId renamed with
    | .next commandId => some (commandId, input.placement)
    | _ => none

/-- The claim on a name that the step ends. -/
def releases : FlowStep → List Str
  | learned steps _ => [steps.name]
  | command .. => []

variable {ρ : Type}

/-- `async_step_learned` and `async_step_command`. -/
def apply (step : FlowStep) (data : Option BridgeStatus) (r : CommandReconciler ρ) :
    CommandReconciler ρ :=
  let released := { r with reserved := r.reserved.filter fun name => name ∉ step.releases }
  match step.places data r.entry with
  | none => released
  | some (commandId, m) =>
    match r.entry.withMeta commandId m with
    | none => r
    | some entry => { released with entry := entry }

variable {step : FlowStep} {data : Option BridgeStatus} {r : CommandReconciler ρ} {commandId : Int}
  {m : CommandMeta}

theorem readable_places (h : step.places data r.entry = some (commandId, m)) : m.Readable := by
  unfold places at h
  split at h
  · cases h
  · split at h
    · obtain ⟨id, -, heq⟩ := Option.map_eq_some_iff.mp h
      obtain ⟨-, rfl⟩ := Prod.mk.inj heq
      exact LearnCommandSteps.readable_placement _ _ _
    · cases h
  · split at h
    · obtain ⟨-, rfl⟩ := Prod.mk.inj (Option.some.inj h)
      exact CommandInput.readable_placement _
    · cases h

/-- A flow step touches neither the targets nor the records. -/
theorem apply_frame (step : FlowStep) (data : Option BridgeStatus) (r : CommandReconciler ρ) :
    (step.apply data r).entry.subentries = r.entry.subentries ∧
    (step.apply data r).entry.uniqueId = r.entry.uniqueId ∧
    (step.apply data r).entry.entryId = r.entry.entryId ∧
    (step.apply data r).registry = r.registry ∧
    (step.apply data r).identityMismatch = r.identityMismatch := by
  unfold apply
  cases step.places data r.entry with
  | none => exact ⟨rfl, rfl, rfl, rfl, rfl⟩
  | some p =>
    obtain ⟨commandId, m⟩ := p
    dsimp only
    cases hentry : r.entry.withMeta commandId m with
    | none => exact ⟨rfl, rfl, rfl, rfl, rfl⟩
    | some entry =>
      obtain ⟨hsub, hunique, hid⟩ := subentries_withMeta hentry
      exact ⟨hsub, hunique, hid, rfl, rfl⟩

theorem apply_of_none (h : step.places data r.entry = none) : (step.apply data r).entry = r.entry := by
  unfold apply
  rw [h]

/-- A flow step records nothing under other ids. -/
theorem metaFor_apply_of_ne (h : step.places data r.entry = some (commandId, m)) {id : Int}
    (hid : id ≠ commandId) : metaFor (step.apply data r).entry id = metaFor r.entry id := by
  unfold apply
  rw [h]
  dsimp only
  cases hentry : r.entry.withMeta commandId m with
  | none => rfl
  | some entry => exact (metaFor_withMeta (readable_places h) hentry id).trans (if_neg hid)

/-- **A flow step records what it places**, under an id of ordinary size. -/
theorem metaFor_apply (h : step.places data r.entry = some (commandId, m))
    (hsmall : commandId.natAbs < 10 ^ Decimal.maxDigits) :
    metaFor (step.apply data r).entry commandId = m.recorded := by
  unfold apply
  rw [h]
  dsimp only
  cases hentry : r.entry.withMeta commandId m with
  | none =>
    unfold ConfigEntry.withMeta at hentry
    rw [if_pos (Or.inr hsmall)] at hentry
    cases hentry
  | some entry => exact (metaFor_withMeta (readable_places h) hentry commandId).trans (if_pos rfl)

end FlowStep

end RfCloner
