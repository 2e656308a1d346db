/-
  The devices of the targets (`devices.py`, `config_flow.py`).

  Every target has a device, which follows it in name and model.  Its area is another matter: it is
  applied once, when the device first appears, and from then on it is the user's, who moves the device
  in Home Assistant or by the form of the target.  The device registry is Home Assistant's, and what
  is relied on of it are the laws of `DeviceRegistry`.

  `chosenArea` is the area that an event gives a device as the user's choice.  `area_is_users` says
  that the area is always the last choice, whatever is reloaded and renamed in between, and when the
  form of a target leaves the device in the area that was submitted.
-/
import RfCloner.Hass.Flows
import RfCloner.Lib.Runs

namespace RfCloner

/-! ## The registry -/

/-- What a device of a target has of the target, and its area. -/
structure TargetDevice where
  name : Str
  model : Str
  areaId : Option Str

/-- Home Assistant's device registry, by the identifiers of this integration. -/
structure DeviceRegistry (δ : Type) where
  /-- `async_get_device_by_identifier`. -/
  device : δ → Str → Option TargetDevice
  /-- The area that the registry has kept for a device that is not there. -/
  restored : δ → Str → Option Str
  /-- `async_get_or_create`, with the name and the model. -/
  getOrCreate : δ → Str → Str → Str → δ
  /-- `async_update_device`, with the area. -/
  setArea : δ → Str → Option Str → δ
  /-- What becomes of the devices when a subentry is removed. -/
  dropDevice : δ → Str → δ
  /-- A device that there is keeps its area, and a new one is restored with the one kept for it. -/
  getOrCreate_self : ∀ (d : δ) (i name model : Str), device (getOrCreate d i name model) i
    = some ⟨name, model, ((device d i).map TargetDevice.areaId).getD (restored d i)⟩
  getOrCreate_other : ∀ (d : δ) (i name model : Str) {j : Str}, j ≠ i →
    device (getOrCreate d i name model) j = device d j
  device_setArea : ∀ (d : δ) (i : Str) (areaId : Option Str) (j : Str),
    device (setArea d i areaId) j
      = if j = i then (device d i).map fun device => { device with areaId := areaId } else device d j
  device_dropDevice : ∀ (d : δ) (i j : Str),
    device (dropDevice d i) j = if j = i then none else device d j
  restored_getOrCreate : ∀ (d : δ) (i name model : Str) {j : Str}, j ≠ i →
    restored (getOrCreate d i name model) j = restored d j
  restored_setArea : ∀ (d : δ) (i : Str) (areaId : Option Str) {j : Str}, j ≠ i →
    restored (setArea d i areaId) j = restored d j

/-- A registry that is a list of devices, and keeps nothing of those that are gone. -/
def DeviceRegistry.listed : DeviceRegistry (List (Str × TargetDevice)) where
  device := Dict.get
  restored _ _ := none
  getOrCreate d i name model :=
    Dict.set d i ⟨name, model, (Dict.get d i).bind TargetDevice.areaId⟩
  setArea d i areaId :=
    match Dict.get d i with
    | none => d
    | some device => Dict.set d i { device with areaId := areaId }
  dropDevice d i := Dict.erase d i
  getOrCreate_self := by
    intro d i name model
    rw [Dict.get_set, if_pos rfl]
    cases Dict.get d i <;> rfl
  getOrCreate_other := by
    intro d i name model j h
    rw [Dict.get_set, if_neg h]
  device_setArea := by
    intro d i areaId j
    by_cases hj : j = i
    · subst hj
      rw [if_pos rfl]
      cases h : Dict.get d j with
      | none => rw [h]; rfl
      | some device => rw [Dict.get_set, if_pos rfl]; rfl
    · rw [if_neg hj]
      cases h : Dict.get d i with
      | none => rfl
      | some device => rw [Dict.get_set, if_neg hj]
  device_dropDevice := Dict.get_erase
  restored_getOrCreate _ _ _ _ _ _ := rfl
  restored_setArea _ _ _ _ _ := rfl

/-! ## Devices of targets -/

/-- `TARGET_TYPE_MODELS`. -/
def targetTypeModels : List (Str × Str) :=
  [(targetTypeGeneric, str "RF target"), (str "fan", str "RF fan"), (str "gate", str "RF gate"),
    (str "light", str "RF light"), (str "cover", str "RF cover"), (str "tv", str "RF TV"),
    (str "air_conditioner", str "RF air conditioner"), (str "other", str "RF target")]

/-- `target_model`. -/
def targetModel (targetType : Str) : Str :=
  (Dict.get targetTypeModels targetType).getD (str "RF target")

/-- `target_device_identifier`. -/
def targetDeviceIdentifier (bridgeId targetId : Str) : Str := bridgeId ++ str "_target_" ++ targetId

/-- `device_identifier`. -/
def RfTarget.deviceIdentifier (bridgeId : Str) (target : RfTarget) : Str :=
  targetDeviceIdentifier bridgeId target.targetId

section Source

variable {δ : Type} (R : DeviceRegistry δ) (bridgeId : Str)

/-- `async_register_target_device`. -/
def asyncRegisterTargetDevice (d : δ) (target : RfTarget) : δ :=
  let identifier := target.deviceIdentifier bridgeId
  let isNew := (R.device d identifier).isNone
  let created := R.getOrCreate d identifier target.name (targetModel target.targetType)
  let areaId := (R.device created identifier).bind TargetDevice.areaId
  if isNew && target.areaId.isSome && areaId.isNone then R.setArea created identifier target.areaId
  else created

/-- `async_sync_target_devices`. -/
def asyncSyncTargetDevices (entry : ConfigEntry) (d : δ) : δ :=
  ((targets entry).map Prod.snd).foldl (asyncRegisterTargetDevice R bridgeId) d

/-- `async_target_device_area`. -/
def asyncTargetDeviceArea (d : δ) (target : RfTarget) : Option Str :=
  (R.device d (target.deviceIdentifier bridgeId)).bind TargetDevice.areaId

/-- `async_set_target_area`. -/
def asyncSetTargetArea (d : δ) (target : RfTarget) (areaId : Option Str) : δ :=
  if (R.device d (target.deviceIdentifier bridgeId)).isNone then d
  else R.setArea d (target.deviceIdentifier bridgeId) areaId

/-- The entry with its devices; `loaded` says whether it has its runtime data. -/
structure Household (δ : Type) where
  entry : ConfigEntry
  registry : δ
  loaded : Bool

/-- What the user submits in the form of a target. -/
structure TargetInput where
  name : Str
  targetType : Option Json
  areaId : Option Str

/-- `_current_area` of a target. -/
def currentArea (x : Household δ) (target : RfTarget) : Option Str :=
  if x.loaded then
    match asyncTargetDeviceArea R bridgeId x.registry target with
    | some areaId => some areaId
    | none => target.areaId
  else target.areaId

/-- A text of the JSON store, or its null. -/
def Json.ofOption : Option Str → Json
  | some s => .str s
  | none => .other

/-- The data of a subentry with the type and the area of the form. -/
def TargetInput.data (input : TargetInput) (data : JsonDict) : JsonDict :=
  Dict.set (Dict.set data confTargetType (.str (validateTargetType input.targetType))) confAreaId
    (.ofOption input.areaId)

variable (casefold : Str → Str)

/-- A target other than `target` has the name. -/
def nameClash (entry : ConfigEntry) (name : Str) (target : Option RfTarget) : Bool :=
  (targets entry).any fun other =>
    casefold other.2.name = casefold name && target.all fun t => other.2.targetId ≠ t.targetId

/-- `TargetSubentryFlow.async_step_user`, given the ids of the new subentry and target. -/
def asyncStepUser (subentryId targetId : Str) (x : Household δ) (input : TargetInput) :
    FlowResult (Household δ) :=
  let name := strip input.name
  if name.isEmpty then .form (str "name") (str "name_empty")
  else if nameClash casefold x.entry name none then .form (str "name") (str "target_name_taken")
  else
    let subentry : ConfigSubentry :=
      { subentryId := subentryId
        subentryType := subentryTypeTarget
        title := name
        data := [(confTargetId, .str targetId),
          (confTargetType, .str (validateTargetType input.targetType)),
          (confAreaId, .ofOption input.areaId)] }
    .next { x with entry := { x.entry with subentries := x.entry.subentries ++ [subentry] } }

/-- The target of a subentry. -/
def targetOf (entry : ConfigEntry) (subentryId : Str) : Option RfTarget :=
  (entry.subentries.find? fun subentry => subentry.subentryId = subentryId).bind
    RfTarget.fromSubentry

/-- `TargetSubentryFlow.async_step_reconfigure`. -/
def asyncStepReconfigure (subentryId : Str) (x : Household δ) (input : TargetInput) :
    FlowResult (Household δ) :=
  match targetOf x.entry subentryId with
  | none => .abort (str "unknown_target")
  | some target =>
    let name := strip input.name
    if name.isEmpty then .form (str "name") (str "name_empty")
    else if nameClash casefold x.entry name (some target) then
      .form (str "name") (str "target_name_taken")
    else
      let subentries := x.entry.subentries.map fun subentry =>
        if subentry.subentryId = subentryId then
          { subentry with title := name, data := input.data subentry.data }
        else subentry
      let registry :=
        if x.loaded && input.areaId ≠ currentArea R bridgeId x target then
          asyncSetTargetArea R bridgeId x.registry target input.areaId
        else x.registry
      .next { x with entry := { x.entry with subentries := subentries }, registry := registry }

end Source

/-! ## Events -/

/-- What happens to an entry and its devices. -/
inductive TargetEvent where
  /-- `async_setup_entry`. -/
  | setup
  | unload
  /-- `_async_entry_updated`, with the node of the entry as it was. -/
  | updated
  | create (subentryId targetId : Str) (input : TargetInput)
  | reconfigure (subentryId : Str) (input : TargetInput)
  /-- The user moves a device. -/
  | move (identifier : Str) (areaId : Option Str)
  /-- The user removes a target. -/
  | remove (subentryId : Str)

namespace Household

variable {δ : Type} (R : DeviceRegistry δ) (bridgeId : Str) (casefold : Str → Str)

/-- What the area of a device is for the registry. -/
def areaOf (x : Household δ) (identifier : Str) : Option Str :=
  (R.device x.registry identifier).bind TargetDevice.areaId

/-- The state after a step of a flow. -/
def orElse (x : Household δ) : FlowResult (Household δ) → Household δ
  | .next y => y
  | _ => x

/-- One event. -/
def step (x : Household δ) : TargetEvent → Household δ
  | .setup =>
    { x with loaded := true, registry := asyncSyncTargetDevices R bridgeId x.entry x.registry }
  | .unload => { x with loaded := false }
  | .updated =>
    if x.loaded then { x with registry := asyncSyncTargetDevices R bridgeId x.entry x.registry }
    else x
  | .create subentryId targetId input =>
    x.orElse (asyncStepUser casefold subentryId targetId x input)
  | .reconfigure subentryId input =>
    x.orElse (asyncStepReconfigure R bridgeId casefold subentryId x input)
  | .move identifier areaId => { x with registry := R.setArea x.registry identifier areaId }
  | .remove subentryId =>
    match targetOf x.entry subentryId with
    | none => x
    | some target =>
      { x with
        entry := { x.entry with
          subentries := x.entry.subentries.filter fun subentry => subentry.subentryId ≠ subentryId }
        registry := R.dropDevice x.registry (target.deviceIdentifier bridgeId) }

/-- The state after the first `k` events. -/
abbrev after (x : Household δ) (events : List TargetEvent) (k : Nat) : Household δ :=
  Runs.moment (step R bridgeId casefold) x events k

/-- The form of the target is accepted, with an area that is not the one it showed. -/
def Moves (x : Household δ) (subentryId : Str) (input : TargetInput) (target : RfTarget) : Prop :=
  targetOf x.entry subentryId = some target ∧ strip input.name ≠ [] ∧
    nameClash casefold x.entry (strip input.name) (some target) = false ∧ x.loaded = true ∧
    input.areaId ≠ currentArea R bridgeId x target

open Classical in
/-- The area that an event gives a device as the user's choice. -/
noncomputable def chosenArea (x : Household δ) (identifier : Str) : TargetEvent → Option (Option Str)
  | .move moved areaId => if moved = identifier then some areaId else none
  | .reconfigure subentryId input =>
    if ∃ target, Moves R bridgeId casefold x subentryId input target ∧
        target.deviceIdentifier bridgeId = identifier then some input.areaId
    else none
  | _ => none

end Household

/-! ## Registering -/

section Register

variable {δ : Type} {R : DeviceRegistry δ} {bridgeId : Str} {d : δ} {i : Str} {old : TargetDevice}

/-- Registering a target does not touch the devices of others. -/
theorem device_register_other {target : RfTarget} (hi : i ≠ target.deviceIdentifier bridgeId) :
    R.device (asyncRegisterTargetDevice R bridgeId d target) i = R.device d i := by
  have hcreated := R.getOrCreate_other d (target.deviceIdentifier bridgeId) target.name
    (targetModel target.targetType) hi
  unfold asyncRegisterTargetDevice
  dsimp only
  split
  · rw [R.device_setArea, if_neg hi, hcreated]
  · exact hcreated

/-- Nor what is kept for them. -/
theorem restored_register_other {target : RfTarget} (hi : i ≠ target.deviceIdentifier bridgeId) :
    R.restored (asyncRegisterTargetDevice R bridgeId d target) i = R.restored d i := by
  have hcreated := R.restored_getOrCreate d (target.deviceIdentifier bridgeId) target.name
    (targetModel target.targetType) hi
  unfold asyncRegisterTargetDevice
  dsimp only
  split
  · rw [R.restored_setArea _ _ _ hi, hcreated]
  · exact hcreated

variable (R bridgeId d) in
/-- It gives the target a device of its name and model.  A device that there was stays in its area,
    and a new one is in the area that was restored, or else in the target's. -/
theorem device_register_self (target : RfTarget) :
    let i := target.deviceIdentifier bridgeId
    ∃ new, R.device (asyncRegisterTargetDevice R bridgeId d target) i = some new ∧
      new.name = target.name ∧ new.model = targetModel target.targetType ∧
      (∀ old, R.device d i = some old → new.areaId = old.areaId) ∧
      (R.device d i = none → new.areaId = (R.restored d i).or target.areaId) := by
  intro i
  have hcreated := R.getOrCreate_self d (target.deviceIdentifier bridgeId) target.name
    (targetModel target.targetType)
  unfold asyncRegisterTargetDevice
  dsimp only
  cases hold : R.device d (target.deviceIdentifier bridgeId) with
  | some old =>
    rw [hold, Option.map_some, Option.getD_some] at hcreated
    refine ⟨_, hcreated, rfl, rfl, fun old' hsame => ?_, fun hnone => ?_⟩
    · obtain rfl := Option.some.inj hsame
      rfl
    · cases hnone
  | none =>
    rw [hold, Option.map_none, Option.getD_none] at hcreated
    rw [hcreated, Option.bind_some]
    -- the target's area is applied if it has one and none was restored
    cases hrestored : R.restored d (target.deviceIdentifier bridgeId) with
    | some areaId =>
      rw [hrestored] at hcreated
      refine ⟨_, (congrArg (fun d => R.device d i) (if_neg ?_)).trans hcreated, rfl, rfl,
        fun old h => (by cases h), fun _ => rfl⟩
      simp
    | none =>
      rw [hrestored] at hcreated
      cases harea : target.areaId with
      | none =>
        exact ⟨_, hcreated, rfl, rfl, fun old h => (by cases h), fun _ => rfl⟩
      | some areaId =>
        exact ⟨_, (R.device_setArea _ _ _ _).trans ((if_pos rfl).trans (congrArg _ hcreated)), rfl,
          rfl, fun old h => (by cases h), fun _ => rfl⟩

/-- Registering a target leaves every device in its area. -/
theorem device_register (bridgeId : Str) (target : RfTarget) (h : R.device d i = some old) :
    ∃ new, R.device (asyncRegisterTargetDevice R bridgeId d target) i = some new ∧
      new.areaId = old.areaId := by
  by_cases hi : i = target.deviceIdentifier bridgeId
  · subst hi
    obtain ⟨new, hnew, -, -, hkeeps, -⟩ := device_register_self R bridgeId d target
    exact ⟨new, hnew, hkeeps old h⟩
  · exact ⟨old, (device_register_other hi).trans h, rfl⟩

/-- So does registering them all. -/
theorem device_sync (bridgeId : Str) (entry : ConfigEntry) (h : R.device d i = some old) :
    ∃ new, R.device (asyncSyncTargetDevices R bridgeId entry d) i = some new ∧
      new.areaId = old.areaId := by
  unfold asyncSyncTargetDevices
  generalize (targets entry).map Prod.snd = ts
  induction ts generalizing d old with
  | nil => exact ⟨old, h, rfl⟩
  | cons target ts ih =>
    obtain ⟨new, hnew, harea⟩ := device_register bridgeId target h
    obtain ⟨last, hlast, harea'⟩ := ih hnew
    exact ⟨last, hlast, harea'.trans harea⟩

/-- Registering others does not touch a device. -/
theorem device_foldl_other {ts : List RfTarget} (h : ∀ t ∈ ts, i ≠ t.deviceIdentifier bridgeId) :
    R.device (ts.foldl (asyncRegisterTargetDevice R bridgeId) d) i = R.device d i := by
  induction ts generalizing d with
  | nil => rfl
  | cons t ts ih =>
    rw [List.foldl_cons, ih fun u hu => h u (List.mem_cons_of_mem t hu)]
    exact device_register_other (h t List.mem_cons_self)

theorem deviceIdentifier_inj {t u : RfTarget}
    (h : t.deviceIdentifier bridgeId = u.deviceIdentifier bridgeId) : t.targetId = u.targetId :=
  List.append_cancel_left h

variable (R bridgeId d) in
/-- Every target of the entry then has a device of its name and model, and the stored area is applied
    to the new ones. -/
theorem device_synced {entry : ConfigEntry} {target : RfTarget}
    (h : Dict.get (targets entry) target.targetId = some target) :
    let i := target.deviceIdentifier bridgeId
    ∃ new, R.device (asyncSyncTargetDevices R bridgeId entry d) i = some new ∧
      new.name = target.name ∧ new.model = targetModel target.targetType ∧
      (∀ old, R.device d i = some old → new.areaId = old.areaId) ∧
      (R.device d i = none → new.areaId = (R.restored d i).or target.areaId) := by
  intro i
  have hmem : target ∈ (targets entry).map Prod.snd := List.mem_map.mpr ⟨_, Dict.mem_of_get h, rfl⟩
  -- the targets of an entry have distinct ids
  have hdistinct : ((targets entry).map Prod.snd).Pairwise fun t u => t.targetId ≠ u.targetId := by
    have hunique : Dict.Unique (targets entry) := Dict.unique_ofPairs _
    have hkeys : ∀ p ∈ targets entry, p.2.targetId = p.1 := fun p hp =>
      (get_targets (hunique.get_eq_some_iff.mpr hp)).1
    rw [List.pairwise_map]
    refine (List.pairwise_map.mp hunique).imp_of_mem fun {p q} hp hq hne => ?_
    rw [hkeys p hp, hkeys q hq]
    exact hne
  unfold asyncSyncTargetDevices
  generalize (targets entry).map Prod.snd = ts at hmem hdistinct
  induction ts generalizing d with
  | nil => cases hmem
  | cons first ts ih =>
    obtain ⟨hfirst, hrest⟩ := List.pairwise_cons.mp hdistinct
    rcases List.mem_cons.mp hmem with rfl | hmem
    · obtain ⟨new, hnew, hname, hmodel, hplaced⟩ := device_register_self R bridgeId d target
      refine ⟨new, ?_, hname, hmodel, hplaced⟩
      have hothers : ∀ u ∈ ts, i ≠ u.deviceIdentifier bridgeId :=
        fun u hu hsame => hfirst u hu (deviceIdentifier_inj hsame)
      exact (device_foldl_other hothers).trans hnew
    · obtain ⟨new, hnew, hname, hmodel, hplaced⟩ :=
        ih (asyncRegisterTargetDevice R bridgeId d first) hmem hrest
      have hother : i ≠ first.deviceIdentifier bridgeId :=
        fun hsame => hfirst target hmem (deviceIdentifier_inj hsame).symm
      rw [device_register_other hother, restored_register_other hother] at hplaced
      exact ⟨new, hnew, hname, hmodel, hplaced⟩

end Register

/-! ## One event -/

namespace Household

section Step

variable {δ : Type} {R : DeviceRegistry δ} {bridgeId : Str} {casefold : Str → Str} {x : Household δ}
  {i : Str} {old new : TargetDevice}

variable (R bridgeId casefold x) in
/-- What the form of a target does to the registry. -/
theorem registry_reconfigure (subentryId : Str) (input : TargetInput) :
    (∃ target, Moves R bridgeId casefold x subentryId input target ∧
      (x.step R bridgeId casefold (.reconfigure subentryId input)).registry
        = asyncSetTargetArea R bridgeId x.registry target input.areaId) ∨
    (¬ ∃ target, Moves R bridgeId casefold x subentryId input target) ∧
      (x.step R bridgeId casefold (.reconfigure subentryId input)).registry = x.registry := by
  have hstep : x.step R bridgeId casefold (.reconfigure subentryId input)
      = x.orElse (asyncStepReconfigure R bridgeId casefold subentryId x input) := rfl
  rw [hstep]
  unfold asyncStepReconfigure
  cases htarget : targetOf x.entry subentryId with
  | none =>
    refine Or.inr ⟨fun ⟨target, h, _⟩ => ?_, rfl⟩
    rw [htarget] at h
    cases h
  | some target =>
    have hothers : ∀ {p : Prop}, (Moves R bridgeId casefold x subentryId input target → p) →
        (∃ target, Moves R bridgeId casefold x subentryId input target) → p := by
      rintro p hp ⟨other, hmoves⟩
      obtain rfl := Option.some.inj (htarget.symm.trans hmoves.1)
      exact hp hmoves
    dsimp only
    split
    · rename_i hname
      exact Or.inr ⟨hothers fun h => h.2.1 (List.isEmpty_iff.mp hname), rfl⟩
    · rename_i hname
      split
      · rename_i hclash
        refine Or.inr ⟨hothers fun h => ?_, rfl⟩
        rw [h.2.2.1] at hclash
        cases hclash
      · rename_i hclash
        dsimp only [orElse]
        split
        · rename_i hmoved
          rw [Bool.and_eq_true, decide_eq_true_eq] at hmoved
          exact Or.inl ⟨target, ⟨htarget, fun h => hname (List.isEmpty_iff.mpr h),
            Bool.eq_false_iff.mpr hclash, hmoved.1, hmoved.2⟩, rfl⟩
        · rename_i hmoved
          rw [Bool.and_eq_true, decide_eq_true_eq] at hmoved
          exact Or.inr ⟨hothers fun h => hmoved ⟨h.2.2.2.1, h.2.2.2.2⟩, rfl⟩

variable (casefold) in
/-- The form of a target moves the device it is about, if it is there, and no other. -/
theorem areaId_reconfigure {subentryId : Str} {input : TargetInput}
    (hold : R.device x.registry i = some old)
    (hnew : R.device (x.step R bridgeId casefold (.reconfigure subentryId input)).registry i
      = some new) :
    new.areaId
      = (x.chosenArea R bridgeId casefold i (.reconfigure subentryId input)).getD old.areaId := by
  have hkept : R.device (x.step R bridgeId casefold (.reconfigure subentryId input)).registry i
      = some old → new.areaId = old.areaId := by
    intro h
    obtain rfl := Option.some.inj (hnew.symm.trans h)
    rfl
  rcases registry_reconfigure R bridgeId casefold x subentryId input with
    ⟨target, hmoves, hregistry⟩ | ⟨hnone, hregistry⟩
  · unfold asyncSetTargetArea at hregistry
    by_cases hi : i = target.deviceIdentifier bridgeId
    · subst hi
      rw [hold, Option.isNone_some, if_neg Bool.false_ne_true] at hregistry
      rw [hregistry, R.device_setArea, if_pos rfl, hold] at hnew
      obtain rfl := Option.some.inj hnew
      have hchosen : x.chosenArea R bridgeId casefold (target.deviceIdentifier bridgeId)
          (.reconfigure subentryId input) = some input.areaId := if_pos ⟨target, hmoves, rfl⟩
      rw [hchosen]
      rfl
    · have hchosen : x.chosenArea R bridgeId casefold i (.reconfigure subentryId input) = none := by
        refine if_neg fun ⟨other, hother, hsame⟩ => hi ?_
        rw [← hsame, Option.some.inj (hmoves.1.symm.trans hother.1)]
      rw [hchosen]
      refine hkept ?_
      rw [hregistry]
      split
      · exact hold
      · rw [R.device_setArea, if_neg hi, hold]
  · have hchosen : x.chosenArea R bridgeId casefold i (.reconfigure subentryId input) = none :=
      if_neg fun ⟨target, hmoves, _⟩ => hnone ⟨target, hmoves⟩
    rw [hchosen]
    refine hkept ?_
    rw [hregistry]
    exact hold

variable (casefold) in
/-- **An event leaves a device in its area, or moves it to the one that the user has chosen.** -/
theorem areaId_step (event : TargetEvent) (hold : R.device x.registry i = some old)
    (hnew : R.device (x.step R bridgeId casefold event).registry i = some new) :
    new.areaId = (x.chosenArea R bridgeId casefold i event).getD old.areaId := by
  have hkept : R.device (x.step R bridgeId casefold event).registry i = some old →
      new.areaId = old.areaId := by
    intro h
    obtain rfl := Option.some.inj (hnew.symm.trans h)
    rfl
  cases event with
  | setup =>
    obtain ⟨synced, hsynced, harea⟩ := device_sync bridgeId x.entry hold
    obtain rfl := Option.some.inj (hnew.symm.trans hsynced)
    exact harea
  | unload => exact hkept hold
  | updated =>
    by_cases hloaded : x.loaded = true
    · have hstep : x.step R bridgeId casefold .updated
          = { x with registry := asyncSyncTargetDevices R bridgeId x.entry x.registry } :=
        if_pos hloaded
      rw [hstep] at hnew
      obtain ⟨synced, hsynced, harea⟩ := device_sync bridgeId x.entry hold
      obtain rfl := Option.some.inj (hnew.symm.trans hsynced)
      exact harea
    · have hstep : x.step R bridgeId casefold .updated = x := if_neg hloaded
      rw [hstep] at hkept
      exact hkept hold
  | create subentryId targetId input =>
    refine hkept ?_
    show R.device (x.orElse (asyncStepUser casefold subentryId targetId x input)).registry i = _
    unfold asyncStepUser
    dsimp only
    split
    · exact hold
    · split <;> exact hold
  | reconfigure subentryId input => exact areaId_reconfigure casefold hold hnew
  | move identifier areaId =>
    change R.device (R.setArea x.registry identifier areaId) i = some new at hnew
    rw [R.device_setArea] at hnew
    by_cases hi : i = identifier
    · subst hi
      rw [if_pos rfl, hold] at hnew
      obtain rfl := Option.some.inj hnew
      have hchosen : x.chosenArea R bridgeId casefold i (.move i areaId) = some areaId := if_pos rfl
      rw [hchosen]
      rfl
    · have hchosen : x.chosenArea R bridgeId casefold i (.move identifier areaId) = none :=
        if_neg (Ne.symm hi)
      rw [if_neg hi, hold] at hnew
      obtain rfl := Option.some.inj hnew
      rw [hchosen]
      rfl
  | remove subentryId =>
    refine hkept ?_
    cases htarget : targetOf x.entry subentryId with
    | none =>
      have hstep : x.step R bridgeId casefold (.remove subentryId) = x := by
        unfold step
        simp only [htarget]
      rw [hstep]
      exact hold
    | some target =>
      have hstep : (x.step R bridgeId casefold (.remove subentryId)).registry
          = R.dropDevice x.registry (target.deviceIdentifier bridgeId) := by
        unfold step
        simp only [htarget]
      rw [hstep, R.device_dropDevice] at hnew ⊢
      by_cases hi : i = target.deviceIdentifier bridgeId
      · rw [if_pos hi] at hnew
        cases hnew
      · rw [if_neg hi]
        exact hold

/-- **Where the form of a target leaves the device.** -/
theorem areaOf_reconfigure {subentryId : Str} {input : TargetInput} {target : RfTarget}
    (htarget : targetOf x.entry subentryId = some target) (hname : strip input.name ≠ [])
    (hclash : nameClash casefold x.entry (strip input.name) (some target) = false)
    (hold : R.device x.registry (target.deviceIdentifier bridgeId) = some old) :
    (x.step R bridgeId casefold (.reconfigure subentryId input)).areaOf R
        (target.deviceIdentifier bridgeId) = input.areaId ↔
      old.areaId = input.areaId ∨
        x.loaded = true ∧ ¬ (old.areaId = none ∧ target.areaId = input.areaId) := by
  have hcurrent : x.loaded = true → currentArea R bridgeId x target = old.areaId.or target.areaId := by
    intro hloaded
    unfold currentArea asyncTargetDeviceArea
    rw [if_pos hloaded, hold]
    cases harea : old.areaId <;> simp [harea]
  unfold areaOf
  rcases registry_reconfigure R bridgeId casefold x subentryId input with
    ⟨other, hmoves, hregistry⟩ | ⟨hnone, hregistry⟩
  · obtain rfl := Option.some.inj (htarget.symm.trans hmoves.1)
    unfold asyncSetTargetArea at hregistry
    rw [hold, Option.isNone_some, if_neg Bool.false_ne_true] at hregistry
    rw [hregistry, R.device_setArea, if_pos rfl, hold]
    obtain ⟨-, -, -, hloaded, hne⟩ := hmoves
    refine iff_of_true rfl (Or.inr ⟨hloaded, fun ⟨hno, hstored⟩ => hne ?_⟩)
    rw [hcurrent hloaded, hno, Option.none_or, hstored]
  · rw [hregistry, hold, Option.bind_some]
    constructor
    · exact Or.inl
    · rintro (hsame | ⟨hloaded, hnot⟩)
      · exact hsame
      · have hshown : input.areaId = currentArea R bridgeId x target := by
          by_contra hne
          exact hnone ⟨target, htarget, hname, hclash, hloaded, hne⟩
        rw [hcurrent hloaded] at hshown
        cases harea : old.areaId with
        | some areaId =>
          rw [harea] at hshown
          exact hshown.symm
        | none =>
          rw [harea, Option.none_or] at hshown
          exact absurd ⟨harea, hshown.symm⟩ hnot

end Step

/-! ## The area is the user's -/

variable {δ : Type} (R : DeviceRegistry δ) (bridgeId : Str) (casefold : Str → Str)

/-- **The area of a target's device is the user's.**  While there is the device, its area is what the
    user chose last, or what it was where no choice was made since.  A sync gives the target a device
    of its name and model: one that was there stays in its area, and a new one is in the area that the
    registry has restored, or else in the target's own.  An accepted form leaves
    the device in the area that was submitted exactly if it was there, or if the entry is loaded, and
    the device is not one without an area for which the stored area was submitted. -/
theorem area_is_users (x : Household δ) (events : List TargetEvent) :
    let moment k := x.after R bridgeId casefold events k
    (∀ i j k, j ≤ k → k ≤ events.length →
      (∀ l, j ≤ l → l ≤ k → (R.device (moment l).registry i).isSome = true) →
      let choice l := events[l]?.bind ((moment l).chosenArea R bridgeId casefold i)
      ((∀ l, j ≤ l → l < k → choice l = none) → (moment k).areaOf R i = (moment j).areaOf R i) ∧
      ∀ l areaId, j ≤ l → l < k → choice l = some areaId → (∀ m, l < m → m < k → choice m = none) →
        (moment k).areaOf R i = areaId) ∧
    (∀ k event, events[k]? = some event →
      event = .setup ∨ event = .updated ∧ (moment k).loaded = true →
      ∀ target : RfTarget, Dict.get (targets (moment (k + 1)).entry) target.targetId = some target →
      ∃ new, R.device (moment (k + 1)).registry (target.deviceIdentifier bridgeId) = some new ∧
        new.name = target.name ∧ new.model = targetModel target.targetType ∧
        (∀ old, R.device (moment k).registry (target.deviceIdentifier bridgeId) = some old →
          new.areaId = old.areaId) ∧
        (R.device (moment k).registry (target.deviceIdentifier bridgeId) = none → new.areaId
          = (R.restored (moment k).registry (target.deviceIdentifier bridgeId)).or target.areaId)) ∧
    ∀ k subentryId input, events[k]? = some (.reconfigure subentryId input) →
      ∀ target old, targetOf (moment k).entry subentryId = some target → strip input.name ≠ [] →
      nameClash casefold (moment k).entry (strip input.name) (some target) = false →
      R.device (moment k).registry (target.deviceIdentifier bridgeId) = some old →
      ((moment (k + 1)).areaOf R (target.deviceIdentifier bridgeId) = input.areaId ↔
        old.areaId = input.areaId ∨
          (moment k).loaded = true ∧ ¬ (old.areaId = none ∧ target.areaId = input.areaId)) := by
  intro moment
  refine ⟨fun i j k hj hk hpresent => ?_, fun k event hevent hsyncs target htarget => ?_,
    fun k subentryId input hevent target old htarget hname hclash hold => ?_⟩
  · intro choice
    -- from one moment to the next, the area is a register that the choices write
    have hregister : ∀ l, j ≤ l → l < k →
        (moment (l + 1)).areaOf R i = (choice l).getD ((moment l).areaOf R i) := by
      intro l hl hl'
      have hevent : events[l]? = some events[l] := List.getElem?_eq_getElem (by omega)
      obtain ⟨old, hold⟩ := Option.isSome_iff_exists.mp (hpresent l hl (by omega))
      obtain ⟨new, hnew⟩ := Option.isSome_iff_exists.mp (hpresent (l + 1) (by omega) (by omega))
      have hmoment : moment (l + 1) = (moment l).step R bridgeId casefold events[l] :=
        Runs.moment_succ hevent
      have harea := areaId_step casefold events[l] hold (hmoment ▸ hnew)
      show (R.device (moment (l + 1)).registry i).bind _ = _
      simp only [choice, areaOf, hold, hnew, hevent, Option.bind_some]
      exact harea
    refine ⟨Runs.eq_of_unwritten (v := fun l => (moment l).areaOf R i) hj hregister,
      fun l areaId hl hl' hchoice hlast => ?_⟩
    calc (moment k).areaOf R i
        = (moment (l + 1)).areaOf R i :=
          Runs.eq_of_unwritten (v := fun l => (moment l).areaOf R i) hl'
            (fun m hm => hregister m (by omega)) fun m hm => hlast m hm
      _ = areaId := by rw [hregister l hl hl', hchoice, Option.getD_some]
  · have hsynced : moment (k + 1) = { moment k with
        loaded := true
        registry := asyncSyncTargetDevices R bridgeId (moment k).entry (moment k).registry } := by
      refine (Runs.moment_succ hevent).trans ?_
      rcases hsyncs with rfl | ⟨rfl, hloaded⟩
      · rfl
      · refine (if_pos hloaded).trans ?_
        rw [← hloaded]
    rw [hsynced] at htarget ⊢
    exact device_synced R bridgeId (moment k).registry htarget
  · rw [show moment (k + 1) = _ from Runs.moment_succ hevent]
    exact areaOf_reconfigure htarget hname hclash hold

/-- An entry with a television in the lounge, before its first setup. -/
def withTelevision : Household (List (Str × TargetDevice)) where
  entry :=
    { entryId := str "e"
      uniqueId := some (str "b")
      options := []
      subentries := [
        { subentryId := str "s"
          subentryType := subentryTypeTarget
          title := str "TV"
          data := [(confTargetId, .str (str "t")), (confTargetType, .str (str "tv")),
            (confAreaId, .str (str "lounge"))] }] }
  registry := []
  loaded := false

/-- The user takes it out of the lounge, and then submits the lounge in its form. -/
def outAndBack : List TargetEvent :=
  [.setup, .move (str "b_target_t") none,
    .reconfigure (str "s") ⟨str "TV", none, some (str "lounge")⟩]

/-- The form does not put it back. -/
theorem area_is_users_cleared :
    let moment k := withTelevision.after DeviceRegistry.listed (str "b") id outAndBack k
    (moment 1).areaOf DeviceRegistry.listed (str "b_target_t") = some (str "lounge") ∧
    (moment 2).areaOf DeviceRegistry.listed (str "b_target_t") = none ∧
    (moment 3).areaOf DeviceRegistry.listed (str "b_target_t") ≠ some (str "lounge") := by
  obtain ⟨harea, -, hform⟩ :=
    area_is_users DeviceRegistry.listed (str "b") id withTelevision outAndBack
  refine ⟨by decide +kernel, ?_, fun h => ?_⟩
  · refine (harea (str "b_target_t") 1 2 (by omega) (by decide) ?_).2 1 none (by omega) (by omega)
      ?_ (by omega)
    · intro l hl hl'
      obtain rfl | rfl : l = 1 ∨ l = 2 := by omega
      all_goals decide +kernel
    · have hmove : outAndBack[1]? = some (.move (str "b_target_t") none) := rfl
      simp [hmove, chosenArea]
  · have hshown := (hform 2 (str "s") _ rfl ⟨str "t", str "s", str "TV", str "tv", some (str "lounge")⟩
      ⟨str "TV", str "RF TV", none⟩ rfl (by decide +kernel) (by decide +kernel) rfl).mp h
    rcases hshown with hwas | ⟨-, hnot⟩
    · cases hwas
    · exact hnot ⟨rfl, rfl⟩

end Household

end RfCloner
