/-
  The organisation of a bridge's commands in Home Assistant (`targets.py`).

  Targets are subentries of the config entry.  Which target a command belongs to, and its icon, are
  kept in the entry's options under the text of the command id, because options are stored as JSON.
  `get_commandMeta_pruned` says what a prune leaves of the metadata of each command; the difficulty
  is that it is written back through text that `int` reads less strictly than `str` writes.
-/
import RfCloner.Hass.Models
import RfCloner.Lib.Decimal
import RfCloner.Lib.Dict
import Mathlib.Data.List.Sort

namespace RfCloner

/-! ## Stored values -/

/-- A value of the JSON store, as far as this integration looks into it. -/
inductive Json where
  | str (s : Str)
  | dict (items : List (Str × Json))
  | other

/-- A dictionary of the JSON store. -/
abbrev JsonDict := List (Str × Json)

/-- `value if isinstance(value, str) and value else None`. -/
def nonEmptyStr : Option Json → Option Str
  | some (.str s) => if s.isEmpty then none else some s
  | _ => none

/-- `ConfigSubentry`. -/
structure ConfigSubentry where
  subentryId : Str
  subentryType : Str
  title : Str
  data : JsonDict

/-- `ConfigEntry`, without its runtime data. -/
structure ConfigEntry where
  entryId : Str
  uniqueId : Option Str
  options : JsonDict
  subentries : List ConfigSubentry

/-! ## Targets -/

/-- `OPT_COMMANDS`. -/
def optCommands : Str := str "commands"
/-- `CONF_TARGET_ID`. -/
def confTargetId : Str := str "target_id"
/-- `CONF_TARGET_TYPE`. -/
def confTargetType : Str := str "target_type"
/-- `CONF_AREA_ID`. -/
def confAreaId : Str := str "area_id"
/-- `CONF_ICON`. -/
def confIcon : Str := str "icon"
/-- `SUBENTRY_TYPE_TARGET`. -/
def subentryTypeTarget : Str := str "target"
/-- `TARGET_TYPE_GENERIC`. -/
def targetTypeGeneric : Str := str "generic"
/-- `TARGET_TYPES`. -/
def targetTypes : List Str :=
  [targetTypeGeneric, str "fan", str "gate", str "light", str "cover", str "tv",
    str "air_conditioner", str "other"]

/-- `validate_target_type`. -/
def validateTargetType : Option Json → Str
  | some (.str s) => if s ∈ targetTypes then s else targetTypeGeneric
  | _ => targetTypeGeneric

/-- `RfTarget`. -/
structure RfTarget where
  targetId : Str
  subentryId : Str
  name : Str
  targetType : Str
  areaId : Option Str

/-- `RfTarget.from_subentry`. -/
def RfTarget.fromSubentry (subentry : ConfigSubentry) : Option RfTarget :=
  if subentry.subentryType ≠ subentryTypeTarget then none
  else
    (nonEmptyStr (Dict.get subentry.data confTargetId)).map fun targetId =>
      { targetId := targetId
        subentryId := subentry.subentryId
        name := subentry.title
        targetType := validateTargetType (Dict.get subentry.data confTargetType)
        areaId := nonEmptyStr (Dict.get subentry.data confAreaId) }

/-- `targets`. -/
def targets (entry : ConfigEntry) : List (Str × RfTarget) :=
  Dict.ofPairs ((entry.subentries.filterMap RfTarget.fromSubentry).map fun t => (t.targetId, t))

/-! ## Command metadata -/

/-- `CommandMeta`. -/
structure CommandMeta where
  targetId : Option Str := none
  icon : Option Str := none
  deriving DecidableEq

namespace CommandMeta

/-- `is_empty`. -/
def isEmpty (m : CommandMeta) : Bool := m.targetId.isNone && m.icon.isNone

/-- `from_stored`. -/
def fromStored : Json → CommandMeta
  | .dict payload =>
    { targetId := nonEmptyStr (Dict.get payload confTargetId)
      icon := nonEmptyStr (Dict.get payload confIcon) }
  | _ => {}

/-- `as_stored`. -/
def asStored (m : CommandMeta) : JsonDict :=
  (m.targetId.map fun s => (confTargetId, Json.str s)).toList
    ++ (m.icon.map fun s => (confIcon, Json.str s)).toList

end CommandMeta

/-- One item of the stored metadata: skipped when its key is not a number or nothing is in it. -/
def storedItem (item : Str × Json) : Option (Int × CommandMeta) :=
  match Decimal.ofText item.1 with
  | none => none
  | some commandId =>
    let m := CommandMeta.fromStored item.2
    if m.isEmpty then none else some (commandId, m)

/-- `command_meta`. -/
def commandMeta (entry : ConfigEntry) : List (Int × CommandMeta) :=
  match Dict.get entry.options optCommands with
  | some (.dict stored) => Dict.ofPairs (stored.filterMap storedItem)
  | _ => []

/-- `meta_for`, `none` where it is an empty one. -/
def metaFor (entry : ConfigEntry) (commandId : Int) : Option CommandMeta :=
  Dict.get (commandMeta entry) commandId

/-- `merged`, once the updates have been applied to it: an empty one drops the command. -/
def mergeUpdates (merged updates : List (Int × CommandMeta)) : List (Int × CommandMeta) :=
  updates.foldl (fun merged (commandId, m) =>
    if m.isEmpty then Dict.erase merged commandId else Dict.set merged commandId m) merged

/-- The item that stores the metadata of one command. -/
def storeItem (item : Int × CommandMeta) : Str × Json :=
  (Decimal.toText item.1, .dict item.2.asStored)

/-- `options_with`. -/
def optionsWith (entry : ConfigEntry) (updates : List (Int × CommandMeta)) : JsonDict :=
  let merged := mergeUpdates (commandMeta entry) updates
  Dict.set entry.options optCommands
    (.dict ((merged.mergeSort fun a b => a.1 ≤ b.1).map storeItem))

/-- The command is absent from a listing that would have named it. -/
def absentFrom (commandIds : Option (List Int)) (listedBelow : Option Int) (commandId : Int) :
    Bool :=
  match commandIds with
  | none => false
  | some ids => decide (commandId ∉ ids) && listedBelow.all fun below => commandId < below

/-- The assignment names a target that does not exist. -/
def danglingTarget (entry : ConfigEntry) (m : CommandMeta) : Bool :=
  match m.targetId with
  | none => false
  | some targetId => (Dict.get (targets entry) targetId).isNone

/-- The update `options_pruned_to` makes for one command. -/
def staleUpdate (entry : ConfigEntry) (commandIds : Option (List Int)) (listedBelow : Option Int)
    (commandId : Int) (m : CommandMeta) : Option CommandMeta :=
  -- empty metadata stands for a command that is to be forgotten
  if absentFrom commandIds listedBelow commandId then some {}
  else if danglingTarget entry m then some { m with targetId := none }
  else none

/-- `options_pruned_to`. -/
def optionsPrunedTo (entry : ConfigEntry) (commandIds : Option (List Int))
    (listedBelow : Option Int) : Option JsonDict :=
  let updates := Dict.select (staleUpdate entry commandIds listedBelow) (commandMeta entry)
  if updates.isEmpty then none else some (optionsWith entry updates)

/-- The entry, once it has been updated with its pruned options. -/
def ConfigEntry.prunedTo (entry : ConfigEntry) (commandIds : Option (List Int))
    (listedBelow : Option Int) : ConfigEntry :=
  match optionsPrunedTo entry commandIds listedBelow with
  | none => entry
  | some options => { entry with options := options }

/-! ## What is written can be read -/

/-- What `from_stored` makes: no field is an empty text. -/
structure CommandMeta.Readable (m : CommandMeta) : Prop where
  targetId : m.targetId ≠ some []
  icon : m.icon ≠ some []

theorem nonEmptyStr_ne (j : Option Json) : nonEmptyStr j ≠ some [] := by
  unfold nonEmptyStr
  split
  · split
    · exact fun h => nomatch h
    · rename_i s hs
      intro h
      obtain rfl := Option.some.inj h
      exact hs rfl
  · exact fun h => nomatch h

theorem nonEmptyStr_none : nonEmptyStr none = none := rfl

theorem nonEmptyStr_str {s : Str} (h : some s ≠ some []) :
    nonEmptyStr (some (.str s)) = some s := by
  cases s with
  | nil => exact absurd rfl h
  | cons c s => rfl

namespace CommandMeta

variable {m : CommandMeta}

theorem readable_fromStored (j : Json) : (fromStored j).Readable := by
  unfold fromStored
  split
  · exact ⟨nonEmptyStr_ne _, nonEmptyStr_ne _⟩
  · exact ⟨(nomatch ·), (nomatch ·)⟩

theorem Readable.unassigned (h : m.Readable) : ({ m with targetId := none } : CommandMeta).Readable :=
  ⟨(nomatch ·), h.icon⟩

/-- **Metadata survives the store.** -/
theorem Readable.fromStored_asStored (h : m.Readable) : fromStored (.dict m.asStored) = m := by
  have hne : confTargetId ≠ confIcon := by decide
  obtain ⟨target, icon⟩ := m
  cases target with
  | none =>
    cases icon with
    | none => rfl
    | some i =>
      have hi := nonEmptyStr_str h.icon
      simp only [fromStored, asStored, Option.map_none, Option.map_some, Option.toList_none,
        Option.toList_some, List.nil_append, Dict.get_cons, Dict.get_nil, if_neg hne.symm, if_true, hi,
        nonEmptyStr_none]
  | some t =>
    have ht := nonEmptyStr_str h.targetId
    cases icon with
    | none =>
      simp only [fromStored, asStored, Option.map_none, Option.map_some, Option.toList_none,
        Option.toList_some, List.append_nil, Dict.get_cons, Dict.get_nil, if_neg hne, if_true, ht,
        nonEmptyStr_none]
    | some i =>
      have hi := nonEmptyStr_str h.icon
      simp [fromStored, asStored, Dict.get_cons, hne, ht, hi]

end CommandMeta

section Meta

variable {entry : ConfigEntry} {id : Int} {m : CommandMeta}

theorem unique_commandMeta (entry : ConfigEntry) : Dict.Unique (commandMeta entry) := by
  unfold commandMeta
  split
  · exact Dict.unique_ofPairs _
  · exact List.nodup_nil

/-- Metadata that `command_meta` could have found: its id came through `int`, its fields through
    `from_stored`. -/
structure MetaStorable (id : Int) (m : CommandMeta) : Prop where
  small : id.natAbs < 10 ^ Decimal.maxDigits
  readable : m.Readable
  notEmpty : m.isEmpty = false

theorem storedItem_eq_some {item : Str × Json} (h : storedItem item = some (id, m)) :
    MetaStorable id m := by
  unfold storedItem at h
  split at h
  · cases h
  rename_i commandId hid
  dsimp only at h
  split at h
  · cases h
  rename_i hempty
  obtain ⟨rfl, rfl⟩ := Prod.mk.inj (Option.some.inj h)
  exact ⟨Decimal.lt_of_ofText hid, CommandMeta.readable_fromStored item.2,
    Bool.eq_false_iff.mpr hempty⟩

/-- **What is written under an id is read back under it.** -/
theorem MetaStorable.storedItem (h : MetaStorable id m) :
    RfCloner.storedItem (storeItem (id, m)) = some (id, m) := by
  unfold RfCloner.storedItem storeItem
  dsimp only
  rw [Decimal.ofText_toText h.small]
  dsimp only
  rw [h.readable.fromStored_asStored, h.notEmpty]
  rfl

theorem commandMeta_of_stored {stored : JsonDict}
    (h : Dict.get entry.options optCommands = some (.dict stored)) :
    commandMeta entry = Dict.ofPairs (stored.filterMap storedItem) := by
  unfold commandMeta
  rw [h]

theorem metaFor_storable (h : metaFor entry id = some m) : MetaStorable id m := by
  unfold metaFor commandMeta at h
  split at h
  · obtain ⟨item, -, hitem⟩ := List.mem_filterMap.mp (Dict.mem_of_get_ofPairs h)
    exact storedItem_eq_some hitem
  · cases h

/-! ## Updating -/

variable {merged updates : List (Int × CommandMeta)}

theorem get_mergeUpdates (hupdates : Dict.Unique updates) (id : Int) :
    Dict.get (mergeUpdates merged updates) id
      = match Dict.get updates id with
        | none => Dict.get merged id
        | some m => if m.isEmpty then none else some m := by
  induction updates generalizing merged with
  | nil => rfl
  | cons p updates ih =>
    obtain ⟨commandId, m⟩ := p
    obtain ⟨hfresh, hrest⟩ := List.nodup_cons.mp hupdates
    unfold mergeUpdates
    rw [List.foldl_cons]
    refine (ih hrest).trans ?_
    rw [Dict.get_cons]
    dsimp only
    by_cases hid : commandId = id
    · subst hid
      have hnone : Dict.get updates commandId = none := by
        rw [Dict.get_eq_none_iff]
        exact fun v hmem => hfresh (List.mem_map.mpr ⟨_, hmem, rfl⟩)
      rw [hnone, if_pos rfl]
      dsimp only
      split
      · rw [Dict.get_erase, if_pos rfl]
      · rw [Dict.get_set, if_pos rfl]
    · rw [if_neg hid]
      split
      · split
        · rw [Dict.get_erase, if_neg (Ne.symm hid)]
        · rw [Dict.get_set, if_neg (Ne.symm hid)]
      · rfl

theorem unique_mergeUpdates (h : Dict.Unique merged) (updates : List (Int × CommandMeta)) :
    Dict.Unique (mergeUpdates merged updates) := by
  induction updates generalizing merged with
  | nil => exact h
  | cons p updates ih =>
    refine ih ?_
    dsimp only
    split
    · exact h.erase _
    · exact h.set _ _

/-- **`options_with` writes what `command_meta` reads back**, when what it is given could have been
    read itself. -/
theorem metaFor_optionsWith (hupdates : Dict.Unique updates)
    (hgood : ∀ id m, Dict.get updates id = some m → m.isEmpty = false → MetaStorable id m)
    (id : Int) :
    metaFor { entry with options := optionsWith entry updates } id
      = match Dict.get updates id with
        | none => metaFor entry id
        | some m => if m.isEmpty then none else some m := by
  have hunique := unique_mergeUpdates (unique_commandMeta entry) updates
  have hmerged (id : Int) : Dict.get (mergeUpdates (commandMeta entry) updates) id
      = match Dict.get updates id with
        | none => Dict.get (commandMeta entry) id
        | some m => if m.isEmpty then none else some m :=
    get_mergeUpdates hupdates id
  have hwritten : Dict.get (optionsWith entry updates) optCommands = some (.dict
      (((mergeUpdates (commandMeta entry) updates).mergeSort fun a b => a.1 ≤ b.1).map storeItem)) := by
    unfold optionsWith
    rw [Dict.get_set, if_pos rfl]
  refine Eq.trans ?_ (hmerged id)
  unfold metaFor
  rw [commandMeta_of_stored hwritten]
  generalize mergeUpdates (commandMeta entry) updates = written at hunique hmerged ⊢
  -- what is written is sorted, and a dictionary does not care
  have hperm := List.mergeSort_perm written fun a b => decide (a.1 ≤ b.1)
  have hstorable : ∀ p ∈ written.mergeSort (fun a b => decide (a.1 ≤ b.1)),
      storedItem (storeItem p) = some p := by
    rintro ⟨id, m⟩ hp
    have hget := hmerged id
    rw [hunique.get_eq_some_iff.mpr (hperm.mem_iff.mp hp)] at hget
    split at hget
    · exact (metaFor_storable hget.symm).storedItem
    · rename_i m' hupdate
      split at hget
      · cases hget
      · rename_i hempty
        obtain rfl := Option.some.inj hget
        exact (hgood id m hupdate (Bool.eq_false_iff.mpr hempty)).storedItem
  rw [Dict.filterMap_map_eq_self hstorable, Dict.get_ofPairs]
  · exact hunique.get_perm hperm
  · exact (hperm.map Prod.fst).nodup_iff.mpr hunique

/-- **What a prune leaves of the metadata of a command.** -/
theorem metaFor_prunedTo (commandIds : Option (List Int)) (listedBelow : Option Int) (id : Int) :
    metaFor (entry.prunedTo commandIds listedBelow) id
      = match metaFor entry id with
        | none => none
        | some m =>
          if absentFrom commandIds listedBelow id then none
          else if danglingTarget entry m then
            if m.icon.isNone then none else some { m with targetId := none }
          else some m := by
  have hupdates := (unique_commandMeta entry).select (staleUpdate entry commandIds listedBelow)
  have hget : ∀ id, Dict.get
      (Dict.select (staleUpdate entry commandIds listedBelow) (commandMeta entry)) id
      = (metaFor entry id).bind (staleUpdate entry commandIds listedBelow id) :=
    (unique_commandMeta entry).get_select _
  have hgood : ∀ id m, Dict.get
      (Dict.select (staleUpdate entry commandIds listedBelow) (commandMeta entry)) id = some m →
      m.isEmpty = false → MetaStorable id m := by
    intro id m h hempty
    rw [hget, Option.bind_eq_some_iff] at h
    obtain ⟨m', hm', hstale⟩ := h
    have hst := metaFor_storable hm'
    unfold staleUpdate at hstale
    -- forgetting leaves nothing to store, and unassigning leaves the icon
    split at hstale
    · obtain rfl := Option.some.inj hstale
      cases hempty
    split at hstale
    · obtain rfl := Option.some.inj hstale
      exact ⟨hst.small, hst.readable.unassigned, hempty⟩
    · cases hstale
  have hafter : metaFor (entry.prunedTo commandIds listedBelow) id
      = match Dict.get
          (Dict.select (staleUpdate entry commandIds listedBelow) (commandMeta entry)) id with
        | none => metaFor entry id
        | some m => if m.isEmpty then none else some m := by
    unfold ConfigEntry.prunedTo optionsPrunedTo
    dsimp only
    split
    · rename_i hnone
      split at hnone
      · rename_i hempty
        rw [List.isEmpty_iff.mp hempty]
        rfl
      · cases hnone
    · rename_i options hsome
      split at hsome
      · cases hsome
      · obtain rfl := Option.some.inj hsome
        exact metaFor_optionsWith hupdates hgood id
  rw [hafter, hget]
  cases metaFor entry id with
  | none => rfl
  | some m =>
    rw [Option.bind_some]
    unfold staleUpdate
    by_cases habsent : absentFrom commandIds listedBelow id = true
    · simp only [habsent, if_true]
      rfl
    · by_cases hdangling : danglingTarget entry m = true
      · simp only [habsent, hdangling, if_true, Bool.false_eq_true, if_false]
        rfl
      · simp only [habsent, hdangling, Bool.false_eq_true, if_false]

end Meta

end RfCloner
