/-
  The answers of the device as they are written and as they are read (`packages/api-actions.yaml`,
  `models.py`).

  `rf_status` and `rf_export` write a JSON object key by key, and `from_payload` reads it key by key,
  so the two sides agree by the names of their keys only.  The reader is tolerant about absent keys,
  so that older firmware still yields a status.

  `answers_read_back` says what is read of an answer from which any keys are absent, those of the
  answer itself and those of its rows: the answer is read exactly if the three keys of the identity
  are there, and the id and the name of every row, and then each value is that of the device or the
  default of its key.  With every key there, the status read is the one the device has.
-/
import RfCloner.Hass.Stored
import RfCloner.System.Outcomes

namespace RfCloner

/-! ## Reading -/

/-- `payload.get(key, default)`. -/
def getOr (payload : List (Str × Value)) (key : String) (default : Value) : Value :=
  (Dict.get payload (str key)).getD default

section Reading

variable (out : Outside)

/-- `CommandInfo.from_payload` of a dictionary. -/
def CommandInfo.ofDict (payload : List (Str × Value)) : Except PyError CommandInfo := do
  let commandId ← (← getItem payload "id").toInt
  let name ← getItem payload "name"
  let pulses ← (getOr payload "pulses" (.int 0)).toInt
  return ⟨commandId, name.toStr out, pulses⟩

/-- `CommandInfo.from_payload`. -/
def CommandInfo.fromPayload : Value → Except PyError CommandInfo
  | .dict payload => ofDict out payload
  | _ => .error .typeError

/-- `BridgeStatus.from_payload`. -/
def LearnStatus.fromPayload (payload : List (Str × Value)) : Except PyError LearnStatus := do
  let bridgeId ← getItem payload "bridge_id"
  let revision ← (← getItem payload "revision").toInt
  let nextCommandId ← (← getItem payload "next_command_id").toInt
  let count ← (getOr payload "count" (.int 0)).toInt
  let maxCommands ← (getOr payload "max_commands" (.int 0)).toInt
  let maxPulses ← (getOr payload "max_pulses" (.int 0)).toInt
  let usedBytes ← (getOr payload "used_bytes" (.int 0)).toInt
  let capacityBytes ← (getOr payload "capacity_bytes" (.int 0)).toInt
  let commands ← (← (getOr payload "commands" (.list [])).items).mapM (CommandInfo.fromPayload out)
  return {
    bridgeId := bridgeId.toStr out
    revision := revision
    nextCommandId := nextCommandId
    restoreIncomplete := (getOr payload "restore_incomplete" (.bool false)).truth
    readOnly := (getOr payload "read_only" (.bool false)).truth
    fault := (getOr payload "fault" (.str (str "none"))).toStr out
    state := (getOr payload "state" (.str (str "unknown"))).toStr out
    lastResult := (getOr payload "last_result" (.str [])).toStr out
    count := count
    maxCommands := maxCommands
    maxPulses := maxPulses
    usedBytes := usedBytes
    capacityBytes := capacityBytes
    commands := commands }

end Reading

/-! ## Writing -/

/-- A row of the answer of `rf_status`. -/
def CommandEntry.row (entry : CommandEntry) : List (Str × Value) :=
  [(str "id", .int entry.commandId.toNat), (str "name", .str (ofUtf8 entry.name)),
    (str "pulses", .int entry.pulseCount.toNat)]

/-- The answer of `rf_status`, given its rows. -/
def LearningCloner.statusAnswer (c : LearningCloner) (rows : List (List (Str × Value))) :
    List (Str × Value) :=
  [(str "bridge_id", .str c.store.bridgeId.hex), (str "revision", .int c.store.revision.toNat),
    (str "next_command_id", .int c.store.nextCommandId.toNat),
    (str "restore_incomplete", .bool (c.store.restoreState != 0)),
    (str "read_only", .bool c.store.readOnly), (str "fault", .str (ofUtf8 c.store.fault.text)),
    (str "state", .str (ofUtf8 c.state.text)), (str "last_result", .str (ofUtf8 c.lastResult)),
    (str "count", .int c.store.count), (str "max_commands", .int c.store.config.maxCommands.toNat),
    (str "max_pulses", .int c.store.config.maxPulses.toNat),
    (str "used_bytes", .int c.store.usedBytes.toNat),
    (str "capacity_bytes", .int c.store.config.maxStorageBytes.toNat),
    (str "commands", .list (rows.map .dict))]

/-- The answer of `rf_export`. -/
def Cloner.exportAnswer (c : Cloner) (commandId : Int32) : List (Str × Value) :=
  match c.store.getById commandId.toUInt32 with
  | none =>
    [(str "schema", .int 1), (str "bridge_id", .str c.store.bridgeId.hex), (str "found", .bool false)]
  | some command =>
    [(str "schema", .int 1), (str "bridge_id", .str c.store.bridgeId.hex), (str "found", .bool true),
      (str "command_id", .int command.commandId.toNat), (str "name", .str (ofUtf8 command.name)),
      (str "pulses", .int command.timings.length), (str "gap_us", .int command.gapUs.toNat),
      (str "repeat_times", .int command.repeatTimes.toNat),
      (str "frequency_hz", .int command.frequencyHz.toNat),
      (str "modulation", .int command.modulation.toNat),
      (str "timings", .list (command.timings.map fun value => .int value.toInt))]

/-! ## Older firmware -/

/-- What is left of an object of which some keys are absent. -/
def kept (keep : Str → Bool) (payload : List (Str × Value)) : List (Str × Value) :=
  payload.filter fun item => keep item.1

/-- The answer to `rf_status` of firmware that writes the keys of `keep` only, and those of `keepRow`
    in its rows. -/
def LearningCloner.olderAnswer (keep keepRow : Str → Bool) (c : LearningCloner) : List (Str × Value) :=
  kept keep (c.statusAnswer (c.store.entries.map fun entry => kept keepRow entry.row))

/-- The status with the default of every key that is absent. -/
def LearnStatus.older (keep keepRow : Str → Bool) (s : LearnStatus) : LearnStatus where
  bridgeId := s.bridgeId
  revision := s.revision
  nextCommandId := s.nextCommandId
  restoreIncomplete := keep (str "restore_incomplete") && s.restoreIncomplete
  readOnly := keep (str "read_only") && s.readOnly
  fault := if keep (str "fault") then s.fault else str "none"
  state := if keep (str "state") then s.state else str "unknown"
  lastResult := if keep (str "last_result") then s.lastResult else []
  count := if keep (str "count") then s.count else 0
  maxCommands := if keep (str "max_commands") then s.maxCommands else 0
  maxPulses := if keep (str "max_pulses") then s.maxPulses else 0
  usedBytes := if keep (str "used_bytes") then s.usedBytes else 0
  capacityBytes := if keep (str "capacity_bytes") then s.capacityBytes else 0
  commands :=
    if keep (str "commands") then
      s.commands.map fun row => { row with pulses := if keepRow (str "pulses") then row.pulses else 0 }
    else []

/-- The keys that are required are there. -/
def Complete (keep keepRow : Str → Bool) (s : LearnStatus) : Prop :=
  keep (str "bridge_id") = true ∧ keep (str "revision") = true ∧ keep (str "next_command_id") = true ∧
    (keep (str "commands") = true → s.commands ≠ [] →
      keepRow (str "id") = true ∧ keepRow (str "name") = true)

/-! ## What is read -/

section Kept

variable {keep keepRow : Str → Bool} {payload : List (Str × Value)} {key : String}

theorem getItem_kept (value : Value) (h : Dict.get payload (str key) = some value) :
    getItem (kept keep payload) key = if keep (str key) then .ok value else .error .keyError := by
  unfold getItem kept
  rw [Dict.get_filter, h]
  cases keep (str key) <;> rfl

theorem getOr_kept (value default : Value) (h : Dict.get payload (str key) = some value) :
    getOr (kept keep payload) key default = if keep (str key) then value else default := by
  unfold getOr kept
  rw [Dict.get_filter, h]
  cases keep (str key) <;> rfl

theorem toInt_ite (b : Bool) (i j : Int) :
    (if b then Value.int i else Value.int j).toInt = .ok (if b then i else j) := by
  cases b <;> rfl

theorem toStr_ite (out : Outside) (b : Bool) (s t : Str) :
    (if b then Value.str s else Value.str t).toStr out = if b then s else t := by
  cases b <;> rfl

theorem truth_ite (b x : Bool) : (if b then Value.bool x else Value.bool false).truth = (b && x) := by
  cases b <;> rfl

end Kept

section Rows

variable (out : Outside) (keepRow : Str → Bool)

/-- What is read of a row. -/
theorem fromPayload_row (entry : CommandEntry) :
    CommandInfo.fromPayload out (.dict (kept keepRow entry.row))
      = if keepRow (str "id") && keepRow (str "name") then
          .ok ⟨entry.commandId.toNat, ofUtf8 entry.name,
            if keepRow (str "pulses") then entry.pulseCount.toNat else 0⟩
        else .error .keyError := by
  have hid : Dict.get entry.row (str "id") = some (.int entry.commandId.toNat) := rfl
  have hname : Dict.get entry.row (str "name") = some (.str (ofUtf8 entry.name)) := rfl
  have hpulses : Dict.get entry.row (str "pulses") = some (.int entry.pulseCount.toNat) := rfl
  show CommandInfo.ofDict out (kept keepRow entry.row) = _
  unfold CommandInfo.ofDict
  rw [getItem_kept _ hid, getItem_kept _ hname, getOr_kept _ _ hpulses]
  cases keepRow (str "id") with
  | false => rfl
  | true =>
    cases keepRow (str "name") with
    | false => rfl
    | true => cases keepRow (str "pulses") <;> rfl

/-- What is read of the rows. -/
theorem mapM_fromPayload (entries : List CommandEntry) :
    ((entries.map fun entry => kept keepRow entry.row).map Value.dict).mapM
        (CommandInfo.fromPayload out)
      = if entries = [] ∨ keepRow (str "id") = true ∧ keepRow (str "name") = true then
          .ok (entries.map fun entry => ⟨entry.commandId.toNat, ofUtf8 entry.name,
            if keepRow (str "pulses") then entry.pulseCount.toNat else 0⟩)
        else .error .keyError := by
  by_cases hkeys : keepRow (str "id") = true ∧ keepRow (str "name") = true
  · rw [if_pos (Or.inr hkeys)]
    have hrow := fromPayload_row out keepRow
    simp only [hkeys.1, hkeys.2, Bool.and_self, if_true] at hrow
    induction entries with
    | nil => rfl
    | cons entry entries ih =>
      rw [List.map_cons, List.map_cons, List.mapM_cons, hrow, ih]
      rfl
  · cases entries with
    | nil => rfl
    | cons entry entries =>
      have hrow := fromPayload_row out keepRow entry
      rw [if_neg (fun h => hkeys (by simpa using h))] at hrow
      rw [List.map_cons, List.map_cons, List.mapM_cons, hrow,
        if_neg (fun h => hkeys (h.resolve_left (by simp)))]
      rfl

end Rows

section Status

variable (out : Outside) {keep keepRow : Str → Bool} (c : LearningCloner)

/-- What is read once the identity is there. -/
theorem fromPayload_identified (hbridge : keep (str "bridge_id") = true)
    (hrevision : keep (str "revision") = true) (hnext : keep (str "next_command_id") = true) :
    LearnStatus.fromPayload out (c.olderAnswer keep keepRow)
      = (if keep (str "commands") then
          (c.store.entries.map fun entry => kept keepRow entry.row).map Value.dict
        else []).mapM (CommandInfo.fromPayload out) >>= fun commands =>
          .ok { c.learnStatus.older keep keepRow with commands := commands } := by
  let rows := c.store.entries.map fun entry => kept keepRow entry.row
  unfold LearnStatus.fromPayload LearningCloner.olderAnswer
  rw [getItem_kept (.str c.store.bridgeId.hex) rfl, getItem_kept (.int c.store.revision.toNat) rfl,
    getItem_kept (.int c.store.nextCommandId.toNat) rfl, hbridge, hrevision, hnext,
    getOr_kept (.int c.store.count) _ rfl, getOr_kept (.int c.store.config.maxCommands.toNat) _ rfl,
    getOr_kept (.int c.store.config.maxPulses.toNat) _ rfl,
    getOr_kept (.int c.store.usedBytes.toNat) _ rfl,
    getOr_kept (.int c.store.config.maxStorageBytes.toNat) _ rfl,
    getOr_kept (.list (rows.map Value.dict)) _ rfl,
    getOr_kept (.bool (c.store.restoreState != 0)) _ rfl, getOr_kept (.bool c.store.readOnly) _ rfl,
    getOr_kept (.str (ofUtf8 c.store.fault.text)) (.str (str "none")) rfl,
    getOr_kept (.str (ofUtf8 c.state.text)) (.str (str "unknown")) rfl,
    getOr_kept (.str (ofUtf8 c.lastResult)) (.str []) rfl]
  simp only [if_true, toInt_ite, toStr_ite, truth_ite]
  cases keep (str "commands") <;> rfl

/-- An answer without its identity is not read. -/
theorem fromPayload_unidentified (h : ¬ (keep (str "bridge_id") = true ∧ keep (str "revision") = true ∧
    keep (str "next_command_id") = true)) :
    LearnStatus.fromPayload out (c.olderAnswer keep keepRow) = .error .keyError := by
  unfold LearnStatus.fromPayload LearningCloner.olderAnswer
  rw [getItem_kept (.str c.store.bridgeId.hex) rfl, getItem_kept (.int c.store.revision.toNat) rfl,
    getItem_kept (.int c.store.nextCommandId.toNat) rfl]
  cases hbridge : keep (str "bridge_id") with
  | false => rfl
  | true =>
    cases hrevision : keep (str "revision") with
    | false => rfl
    | true =>
      cases hnext : keep (str "next_command_id") with
      | false => rfl
      | true => exact absurd ⟨hbridge, hrevision, hnext⟩ h

theorem LearnStatus.with_commands {s : LearnStatus} {commands : List CommandInfo}
    (h : s.commands = commands) : { s with commands := commands } = s := by
  subst h
  rfl

variable (keep keepRow) in
/-- **What is read of an answer from which keys are absent.** -/
theorem fromPayload_older :
    LearnStatus.fromPayload out (c.olderAnswer keep keepRow) = .ok (c.learnStatus.older keep keepRow) ∧
        Complete keep keepRow c.learnStatus ∨
      LearnStatus.fromPayload out (c.olderAnswer keep keepRow) = .error .keyError ∧
        ¬ Complete keep keepRow c.learnStatus := by
  by_cases hidentity : keep (str "bridge_id") = true ∧ keep (str "revision") = true ∧
      keep (str "next_command_id") = true
  · obtain ⟨hbridge, hrevision, hnext⟩ := hidentity
    have hcommands : (c.learnStatus.older keep keepRow).commands
        = if keep (str "commands") then
            c.learnStatus.commands.map fun row =>
              { row with pulses := if keepRow (str "pulses") then row.pulses else 0 }
          else [] := rfl
    have hrows : c.learnStatus.commands = c.store.entries.map fun entry =>
        ⟨entry.commandId.toNat, ofUtf8 entry.name, entry.pulseCount.toNat⟩ := rfl
    rw [fromPayload_identified out c hbridge hrevision hnext]
    unfold Complete
    cases hkeep : keep (str "commands") with
    | false =>
      rw [hkeep] at hcommands
      exact Or.inl ⟨congrArg Except.ok (LearnStatus.with_commands hcommands), hbridge, hrevision,
        hnext, fun h => by cases h⟩
    | true =>
      rw [hkeep, if_pos rfl, hrows, List.map_map] at hcommands
      rw [if_pos rfl, mapM_fromPayload]
      have hempty : c.learnStatus.commands = [] ↔ c.store.entries = [] := by
        rw [hrows, List.map_eq_nil_iff]
      split
      · rename_i hkeys
        refine Or.inl ⟨congrArg Except.ok (LearnStatus.with_commands hcommands), hbridge, hrevision,
          hnext, fun _ hne => hkeys.resolve_left fun h => hne (hempty.mpr h)⟩
      · rename_i hkeys
        refine Or.inr ⟨rfl, fun ⟨_, _, _, h⟩ => hkeys ?_⟩
        by_cases hnil : c.store.entries = []
        · exact Or.inl hnil
        · exact Or.inr (h rfl fun h => hnil (hempty.mp h))
  · exact Or.inr ⟨fromPayload_unidentified out c hidentity, fun h => hidentity ⟨h.1, h.2.1, h.2.2.1⟩⟩

end Status

/-! ## Exports -/

section Export

variable (out : Outside) (c : Cloner) (commandId : Int32)

/-- An export is read as the command it is of. -/
theorem fromPayload_exportAnswer :
    ExportedCommand.fromPayload out (.dict (c.exportAnswer commandId))
      = .ok (c.rfExport commandId) := by
  show ExportedCommand.ofDict out (c.exportAnswer commandId) = _
  unfold Cloner.exportAnswer Cloner.rfExport Cloner.exportOf
  cases c.store.getById commandId.toUInt32 with
  | none => rfl
  | some command =>
    have htimings : (command.timings.map fun value => Value.int value.toInt)
        = (command.timings.map Int32.toInt).map Value.int := List.map_map.symm
    dsimp only
    rw [htimings]
    have hread : ExportedCommand.ofDict out
        [(str "schema", .int 1), (str "bridge_id", .str c.store.bridgeId.hex),
          (str "found", .bool true), (str "command_id", .int command.commandId.toNat), (str "name", .str (ofUtf8 command.name)),
          (str "pulses", .int command.timings.length), (str "gap_us", .int command.gapUs.toNat),
          (str "repeat_times", .int command.repeatTimes.toNat),
          (str "frequency_hz", .int command.frequencyHz.toNat),
          (str "modulation", .int command.modulation.toNat),
          (str "timings", .list ((command.timings.map Int32.toInt).map Value.int))]
        = ((command.timings.map Int32.toInt).map Value.int).mapM Value.toInt >>= fun timings =>
          .ok (some { c.exported command with timings := timings }) := rfl
    rw [hread, mapM_toInt]
    rfl

/-- What is stored of an export is the answer, up to the order of its keys. -/
theorem asDict_perm {command : ExportedCommand} (h : c.rfExport commandId = some command) :
    (c.exportAnswer commandId).Perm command.asDict := by
  unfold Cloner.rfExport Cloner.exportOf at h
  obtain ⟨stored, hget, rfl⟩ := Option.map_eq_some_iff.mp h
  unfold Cloner.exportAnswer ExportedCommand.asDict
  rw [hget]
  dsimp only [Cloner.exported]
  rw [List.length_map, List.map_map]
  exact (List.Perm.swap _ _ _).cons _

end Export

/-! ## Every answer -/

section Whole

variable (out : Outside) (c : LearningCloner)

/-- Nothing is absent from the answer itself. -/
theorem olderAnswer_whole : c.olderAnswer (fun _ => true) (fun _ => true)
    = c.statusAnswer (c.store.entries.map CommandEntry.row) := by
  unfold LearningCloner.olderAnswer kept
  rw [List.filter_true]
  exact congrArg c.statusAnswer (List.map_congr_left fun entry _ => List.filter_true _)

theorem older_whole (s : LearnStatus) : s.older (fun _ => true) (fun _ => true) = s := by
  have hcommands : s.commands.map (fun row => { row with pulses := row.pulses }) = s.commands :=
    List.map_id _
  exact LearnStatus.with_commands hcommands.symm

/-- **Answers are read as what they were written of.**  For every state of the component: the status
    that is read is its status, and the export of an id is its command, whose stored form is the answer
    up to the order of the keys.  Of the answer of firmware that leaves out any keys, in the answer and
    in its rows, a status is read exactly if the three keys of the identity are there and, where there
    are rows, their ids and names; it has the values of the device, and the defaults of the absent
    keys.  Otherwise the `KeyError` of an absent key is raised. -/
theorem answers_read_back :
    LearnStatus.fromPayload out (c.statusAnswer (c.store.entries.map CommandEntry.row))
      = .ok c.learnStatus ∧
    (∀ commandId : Int32,
      ExportedCommand.fromPayload out (.dict (c.toCloner.exportAnswer commandId))
        = .ok (c.toCloner.rfExport commandId) ∧
      ∀ command, c.toCloner.rfExport commandId = some command →
        (c.toCloner.exportAnswer commandId).Perm command.asDict) ∧
    ∀ keep keepRow : Str → Bool,
      (∀ s, LearnStatus.fromPayload out (c.olderAnswer keep keepRow) = .ok s ↔
        Complete keep keepRow c.learnStatus ∧ s = c.learnStatus.older keep keepRow) ∧
      (LearnStatus.fromPayload out (c.olderAnswer keep keepRow) = .error .keyError ↔
        ¬ Complete keep keepRow c.learnStatus) := by
  refine ⟨?_, fun commandId => ⟨fromPayload_exportAnswer out _ commandId, fun command h =>
    asDict_perm _ commandId h⟩, fun keep keepRow => ?_⟩
  · have hread := fromPayload_older out (fun _ => true) (fun _ => true) c
    rw [olderAnswer_whole, older_whole] at hread
    rcases hread with ⟨hread, -⟩ | ⟨-, hnot⟩
    · exact hread
    · exact absurd ⟨rfl, rfl, rfl, fun _ _ => ⟨rfl, rfl⟩⟩ hnot
  · rcases fromPayload_older out keep keepRow c with ⟨hread, hcomplete⟩ | ⟨hread, hnot⟩
    · rw [hread]
      refine ⟨fun s => ⟨fun h => ⟨hcomplete, (Except.ok.inj h).symm⟩,
        fun h => congrArg Except.ok h.2.symm⟩, ?_⟩
      exact iff_of_false (fun h => by cases h) (not_not_intro hcomplete)
    · rw [hread]
      exact ⟨fun s => iff_of_false (fun h => by cases h) fun h => hnot h.1, iff_of_true rfl hnot⟩

end Whole

end RfCloner
