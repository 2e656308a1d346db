/-
  The component around the store and its API actions (`rf_cloner.cpp`, `packages/api-actions.yaml`).

  The actions that change the registry return nothing to their caller: what became of them is only
  in `lastResult`, and in what the next `rf_status` reports.  Their integer arguments are signed
  32-bit; the component narrows them to the widths of the store.

  The flash is left out here.  Of the saves of an operation all that a caller can see is whether all
  of them succeeded (`Op.run_eq_attempt`), so each call takes that as an argument.
-/
import RfCloner.Hass.Models
import RfCloner.Store.Writes

namespace RfCloner

open CommandStore

/-! ## Operations without the flash -/

/-- What a mutation comes to when its saves succeed, or when one of them fails. -/
def Plan.attempt (saves : Bool) (s : CommandStore) : Plan → StoreResult × CommandStore
  | .stop result => (result, s)
  | .write _ next undone => if saves then (.ok, next) else (.storageError, undone)

/-- A mutation whose saves succeed, or one of whose saves fails. -/
def Op.attempt (saves : Bool) (op : Op) (s : CommandStore) : StoreResult × CommandStore :=
  (op.plan s).attempt saves s

section Attempt

variable {op : Op} {s : CommandStore}

theorem Op.attempt_of_stop {result : StoreResult} (hplan : op.plan s = .stop result) (saves : Bool) :
    op.attempt saves s = (result, s) := by
  rw [Op.attempt, hplan]
  rfl

theorem Op.attempt_of_write {payload : Option Nat} {next undone : CommandStore}
    (hplan : op.plan s = .write payload next undone) (saves : Bool) :
    op.attempt saves s = if saves then (.ok, next) else (.storageError, undone) := by
  rw [Op.attempt, hplan]
  rfl

end Attempt

/-- **On any backend, a mutation comes to one of its attempts.** -/
theorem Op.run_eq_attempt {σ : Type} (B : StorageBackend UInt32 σ) (op : Op) (s : CommandStore)
    (io : σ) : ∃ saves, ((op.run B s io).1, (op.run B s io).2.1) = op.attempt saves s := by
  cases hplan : op.plan s with
  | stop result =>
    refine ⟨true, ?_⟩
    rw [Op.run_of_stop hplan, Op.attempt_of_stop hplan]
  | write payload next undone =>
    refine ⟨(B.saveAll (next.records payload) io).1, ?_⟩
    rw [run_of_write B hplan, Op.attempt_of_write hplan]
    split <;> rfl

/-! ## Texts -/

/-- `store_result_to_string`. -/
def StoreResult.text : StoreResult → Bytes
  | .ok => ascii "ok"
  | .nameEmpty => ascii "name_empty"
  | .nameTooLong => ascii "name_too_long"
  | .nameInvalid => ascii "name_invalid"
  | .nameTaken => ascii "name_taken"
  | .notFound => ascii "not_found"
  | .storeFull => ascii "store_full"
  | .tooManyPulses => ascii "too_many_pulses"
  | .budgetExceeded => ascii "budget_exceeded"
  | .storageError => ascii "storage_error"
  | .readOnly => ascii "read_only"
  | .idExhausted => ascii "id_exhausted"
  | .revisionExhausted => ascii "revision_exhausted"
  | .idConflict => ascii "id_conflict"
  | .restoreNotEmpty => ascii "restore_not_empty"
  | .restoreNotActive => ascii "restore_not_active"
  | .restoreInProgress => ascii "restore_in_progress"

/-- `store_fault_to_string`. -/
def StoreFault.text : StoreFault → Bytes
  | .none => ascii "none"
  | .headerInvalid => ascii "header_invalid"
  | .indexInvalid => ascii "index_invalid"
  | .versionUnsupported => ascii "version_unsupported"
  | .payloadInvalid => ascii "payload_invalid"

/-- One hex digit, of either case. -/
def hexValue (c : UInt8) : Option UInt8 :=
  if '0'.toUInt8 ≤ c && c ≤ '9'.toUInt8 then some (c - '0'.toUInt8)
  else if 'a'.toUInt8 ≤ c && c ≤ 'f'.toUInt8 then some (c - 'a'.toUInt8 + 10)
  else if 'A'.toUInt8 ≤ c && c ≤ 'F'.toUInt8 then some (c - 'A'.toUInt8 + 10)
  else none

/-- The loop of `parse_bridge_id`: two digits a byte. -/
def parseHexBytes : Bytes → Option Bytes
  | hi :: lo :: text => do
    let h ← hexValue hi
    let l ← hexValue lo
    let bytes ← parseHexBytes text
    return (h <<< 4 ||| l) :: bytes
  | [_] => none
  | [] => some []

theorem length_parseHexBytes : ∀ {text bytes : Bytes}, parseHexBytes text = some bytes →
    text.length = 2 * bytes.length
  | hi :: lo :: text, bytes, h => by
    unfold parseHexBytes at h
    obtain ⟨_, -, h⟩ := Option.bind_eq_some_iff.mp h
    obtain ⟨_, -, h⟩ := Option.bind_eq_some_iff.mp h
    obtain ⟨rest, hrest, h⟩ := Option.bind_eq_some_iff.mp h
    obtain rfl := Option.some.inj h
    have := length_parseHexBytes hrest
    simp only [List.length_cons]
    omega
  | [_], bytes, h => nomatch h
  | [], bytes, h => by
    obtain rfl := Option.some.inj h
    rfl

/-- `parse_bridge_id`: exactly 32 hex digits. -/
def parseBridgeId (text : Bytes) : Option BridgeId :=
  match h : parseHexBytes text with
  | none => none
  | some bytes =>
    if hlen : text.length = bridgeIdBytes * 2 then
      some ⟨bytes, by have := length_parseHexBytes h; omega⟩
    else none

theorem lt_hexDigit {nibble : Nat} (h : nibble < 16) : (hexDigit nibble).toNat < 128 := by
  have hall : ∀ i : Fin 16, (hexDigit i.1).toNat < 128 := by decide
  exact hall ⟨nibble, h⟩

theorem hexValue_hexDigit {nibble : Nat} (h : nibble < 16) :
    hexValue (UInt8.ofNat (hexDigit nibble).toNat) = some (UInt8.ofNat nibble) := by
  have hall : ∀ i : Fin 16, hexValue (UInt8.ofNat (hexDigit i.1).toNat) = some (UInt8.ofNat i.1) := by
    decide
  exact hall ⟨nibble, h⟩

theorem parseHexBytes_hex (bytes : Bytes) : parseHexBytes (utf8 (bytes.flatMap fun byte =>
    [hexDigit (byte.toNat / 16), hexDigit (byte.toNat % 16)])) = some bytes := by
  induction bytes with
  | nil => rfl
  | cons byte bytes ih =>
    have hlt := byte.toNat_lt
    have hhi : byte.toNat / 16 < 16 := by omega
    have hlo : byte.toNat % 16 < 16 := by omega
    have hjoin : ∀ i : Fin 256, UInt8.ofNat (i.1 / 16) <<< 4 ||| UInt8.ofNat (i.1 % 16)
        = UInt8.ofFin i := by decide +kernel
    have htext : utf8 ((byte :: bytes).flatMap fun byte =>
        [hexDigit (byte.toNat / 16), hexDigit (byte.toNat % 16)])
        = UInt8.ofNat (hexDigit (byte.toNat / 16)).toNat ::
          UInt8.ofNat (hexDigit (byte.toNat % 16)).toNat :: utf8 (bytes.flatMap fun byte =>
            [hexDigit (byte.toNat / 16), hexDigit (byte.toNat % 16)]) := by
      unfold utf8
      rw [List.flatMap_cons, List.flatMap_append, List.flatMap_cons, List.flatMap_singleton,
        utf8EncodeChar_of_lt (lt_hexDigit hhi), utf8EncodeChar_of_lt (lt_hexDigit hlo)]
      rfl
    rw [htext, parseHexBytes, hexValue_hexDigit hhi, hexValue_hexDigit hlo, ih]
    exact congrArg (fun b => some (b :: bytes)) (hjoin byte.toFin)

/-- **`parse_bridge_id` reads `bridge_id_hex`.** -/
theorem parseBridgeId_hex (id : BridgeId) : parseBridgeId (utf8 id.hex) = some id := by
  have hparse : parseHexBytes (utf8 id.hex) = some id.1 := parseHexBytes_hex id.1
  have hlen : (utf8 id.hex).length = bridgeIdBytes * 2 := by
    rw [length_parseHexBytes hparse, id.2, Nat.mul_comm]
  unfold parseBridgeId
  split
  · rename_i hnone
    rw [hparse] at hnone
    cases hnone
  · rename_i bytes hsome
    rw [dif_pos hlen]
    exact congrArg some (Subtype.ext (Option.some.inj (hsome.symm.trans hparse)))

/-! ## The component -/

/-- `RfCloner`, without capturing and sending. -/
structure Cloner where
  store : CommandStore
  lastResult : Bytes := []

namespace Cloner

/-- How every wrapper ends: the outcome of the store's operation becomes `last_result_`. -/
def finish (attempted : StoreResult × CommandStore) (failed done : Bytes) : Bool × Cloner :=
  match attempted with
  | (.ok, store) => (true, ⟨store, done⟩)
  | (result, store) => (false, ⟨store, failed ++ ascii ":" ++ result.text⟩)

/-- `clear_all`. -/
def clearAll (saves : Bool) (c : Cloner) : Cloner :=
  (finish (Op.clearAll.attempt saves c.store) (ascii "clear_failed") (ascii "cleared")).2

/-- `factory_reset`. -/
def factoryReset (saves : Bool) (random : Option BridgeId) (c : Cloner) : Bool × Cloner :=
  finish ((Op.factoryReset random).attempt saves c.store) (ascii "factory_reset_failed")
    (ascii "factory_reset")

/-- `restore_begin`. -/
def restoreBegin (saves : Bool) (bridgeIdHex : Bytes) (nextCommandId : UInt32) (c : Cloner) :
    Bool × Cloner :=
  match parseBridgeId bridgeIdHex with
  | none => (false, { c with lastResult := ascii "restore_failed:bad_bridge_id" })
  | some bridgeId =>
    finish ((Op.restoreBegin bridgeId nextCommandId).attempt saves c.store) (ascii "restore_failed")
      (ascii "restore_started")

/-- `import_command`. -/
def importCommand (saves : Bool) (command : Command) (c : Cloner) : Bool × Cloner :=
  finish ((Op.importCommand command).attempt saves c.store) (ascii "import_failed")
    (ascii "imported:" ++ command.name)

/-- `restore_commit`. -/
def restoreCommit (saves : Bool) (sourceRevision : Int32) (c : Cloner) : Bool × Cloner :=
  if sourceRevision < 0 then
    (false, { c with lastResult := ascii "restore_commit_failed:bad_source_revision" })
  else
    finish ((Op.restoreCommit sourceRevision.toUInt32).attempt saves c.store)
      (ascii "restore_commit_failed") (ascii "restore_committed")

/-! ## The actions -/

/-- `rf_status`, as `BridgeStatus.from_payload` reads it. -/
def rfStatus (c : Cloner) : BridgeStatus where
  bridgeId := c.store.bridgeId.hex
  revision := c.store.revision.toNat
  nextCommandId := c.store.nextCommandId.toNat
  restoreIncomplete := c.store.restoreState != 0
  readOnly := c.store.readOnly
  fault := ofUtf8 c.store.fault.text
  lastResult := ofUtf8 c.lastResult
  count := c.store.count
  maxCommands := c.store.config.maxCommands.toNat
  maxPulses := c.store.config.maxPulses.toNat
  usedBytes := c.store.usedBytes.toNat
  capacityBytes := c.store.config.maxStorageBytes.toNat
  commands := c.store.entries.map fun entry =>
    { commandId := entry.commandId.toNat
      name := ofUtf8 entry.name
      pulses := entry.pulseCount.toNat }

/-- The portable form of one of its commands. -/
def exported (c : Cloner) (command : Command) : ExportedCommand where
  schema := 1
  bridgeId := c.store.bridgeId.hex
  commandId := command.commandId.toNat
  name := ofUtf8 command.name
  gapUs := command.gapUs.toNat
  repeatTimes := command.repeatTimes.toNat
  frequencyHz := command.frequencyHz.toNat
  modulation := command.modulation.toNat
  timings := command.timings.map Int32.toInt

/-- The portable form of the command of an id. -/
def exportOf (c : Cloner) (commandId : UInt32) : Option ExportedCommand :=
  (c.store.getById commandId).map c.exported

/-- `rf_export`, as `ExportedCommand.from_payload` reads it. -/
def rfExport (c : Cloner) (commandId : Int32) : Option ExportedCommand :=
  c.exportOf commandId.toUInt32

/-- `rf_clear`. -/
def rfClear (saves : Bool) (c : Cloner) : Cloner := c.clearAll saves

/-- `rf_factory_reset`. -/
def rfFactoryReset (saves : Bool) (random : Option BridgeId) (c : Cloner) : Cloner :=
  (c.factoryReset saves random).2

/-- `rf_restore_begin`. -/
def rfRestoreBegin (saves : Bool) (bridgeId : Bytes) (nextCommandId : Int32) (c : Cloner) : Cloner :=
  (c.restoreBegin saves bridgeId nextCommandId.toUInt32).2

/-- The arguments of `rf_import`. -/
structure ImportArgs where
  commandId : Int32
  name : Bytes
  timings : List Int32
  gapUs : Int32
  repeatTimes : Int32
  frequencyHz : Int32
  modulation : Int32
  deriving DecidableEq

/-- The command `import_command` builds from its arguments, once they have been converted to its
    parameters. -/
def ImportArgs.command (args : ImportArgs) : Command where
  commandId := args.commandId.toUInt32
  name := args.name
  timings := args.timings
  gapUs := args.gapUs.toUInt32
  repeatTimes := args.repeatTimes.toUInt32.toUInt16
  frequencyHz := args.frequencyHz.toUInt32
  modulation := args.modulation.toUInt32.toUInt8

/-- `rf_import`. -/
def rfImport (saves : Bool) (args : ImportArgs) (c : Cloner) : Cloner :=
  (c.importCommand saves args.command).2

/-- `rf_restore_commit`. -/
def rfRestoreCommit (saves : Bool) (sourceRevision : Int32) (c : Cloner) : Cloner :=
  (c.restoreCommit saves sourceRevision).2

/-! ## What the actions do to the store -/

section Stores

variable (saves : Bool) (c : Cloner)

@[simp] theorem store_finish (attempted : StoreResult × CommandStore) (failed done : Bytes) :
    (finish attempted failed done).2.store = attempted.2 := by
  unfold finish
  split <;> rfl

@[simp] theorem store_rfClear : (c.rfClear saves).store = (Op.clearAll.attempt saves c.store).2 := by
  unfold rfClear clearAll
  rw [store_finish]

@[simp] theorem store_rfImport (args : ImportArgs) :
    (c.rfImport saves args).store
      = ((Op.importCommand args.command).attempt saves c.store).2 := by
  unfold rfImport importCommand
  rw [store_finish]

theorem store_rfRestoreBegin (bridgeId : Bytes) (nextCommandId : Int32) :
    (c.rfRestoreBegin saves bridgeId nextCommandId).store
      = match parseBridgeId bridgeId with
        | none => c.store
        | some id => ((Op.restoreBegin id nextCommandId.toUInt32).attempt saves c.store).2 := by
  unfold rfRestoreBegin restoreBegin
  split
  · rfl
  · rw [store_finish]

theorem store_rfRestoreCommit (sourceRevision : Int32) :
    (c.rfRestoreCommit saves sourceRevision).store
      = if sourceRevision < 0 then c.store
        else ((Op.restoreCommit sourceRevision.toUInt32).attempt saves c.store).2 := by
  unfold rfRestoreCommit restoreCommit
  split
  · rfl
  · rw [store_finish]

end Stores

/-! ## What the status says -/

section Status

variable (c : Cloner)

theorem restoreIncomplete_rfStatus :
    c.rfStatus.restoreIncomplete = false ↔ c.store.restoreState = 0 := by
  show (c.store.restoreState != 0) = false ↔ _
  simp

/-- The ids a status lists are those of the commands in RAM. -/
theorem mem_listed {id : Int} : id ∈ c.rfStatus.commands.map CommandInfo.commandId ↔
    ∃ command ∈ c.store.commands, (command.commandId.toNat : Int) = id := by
  unfold rfStatus entries
  simp only [List.map_map, List.mem_map, Function.comp_def]
  rfl

end Status

end Cloner

end RfCloner
