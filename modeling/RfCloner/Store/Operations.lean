/-
  The operations of `CommandStore` (`command_store.cpp`).

  Every mutation has one shape in the source: guards that return early, then the change in RAM,
  then the writes (the payload of one slot where the operation has one, always the index and the
  header), and a hand-written rollback should a write fail.  The part before the writes is a pure
  function of the store and the arguments, so each operation is modelled by its `Plan`: either the
  early return, or the state to be written together with the state its failure branch leaves
  behind.  `Plan.perform` is the shared tail.
-/
import RfCloner.Store.Layout

namespace RfCloner

open FixedCodec

/-! ## Pure helpers -/

/-- `next_revision`: the revision that follows `base`, when there is room for one. -/
def nextRevision (base : UInt32) : Option UInt32 :=
  if base ≥ revisionMax then none else some (base + 1)

/-- The character set of `validate_name`. -/
def nameCharAllowed (c : UInt8) : Bool :=
  ('a'.toUInt8 ≤ c && c ≤ 'z'.toUInt8) || ('A'.toUInt8 ≤ c && c ≤ 'Z'.toUInt8)
    || ('0'.toUInt8 ≤ c && c ≤ '9'.toUInt8)
    || c == '_'.toUInt8 || c == '-'.toUInt8 || c == '.'.toUInt8

/-- `CommandStore::validate_name`. -/
def validateName (name : Bytes) : StoreResult :=
  if name.isEmpty then .nameEmpty
  else if name.length > nameMaxChars then .nameTooLong
  else if name.all nameCharAllowed then .ok
  else .nameInvalid

/-- `CommandStore::index_overhead_bytes`. -/
def indexOverheadBytes (slotCount : UInt8) : UInt32 :=
  UInt32.ofNat (StoredHeader.codec.width + indexBytesFor slotCount)

namespace CommandStore

/-- `slots_[slot]`. -/
def slot (s : CommandStore) (i : Nat) : Command := s.slots.getD i {}

theorem slot_eq_getElem {s : CommandStore} {i : Nat} (hi : i < s.slots.length) :
    s.slot i = s.slots[i] :=
  SlotTable.get_of_lt hi

theorem slot_of_le {s : CommandStore} {i : Nat} (hi : s.slots.length ≤ i) : s.slot i = {} :=
  SlotTable.get_of_le hi

theorem lt_of_slot_occupied {s : CommandStore} {i : Nat} (h : (s.slot i).occupied = true) :
    i < s.slots.length :=
  SlotTable.lt_of_occupied (l := s.slots) h

/-- `mint_identity_`; `random` is what `store_random_bytes` delivers, `none` when it fails. -/
def mintIdentity (s : CommandStore) (random : Option BridgeId) : CommandStore :=
  { s with
    bridgeId := random.getD BridgeId.zero
    nextCommandId := commandIdFirst
    revision := revisionInitial
    restoreState := 0 }

/-- `writable_`: the shared guard of the mutations that are not part of a restore. -/
def writable (s : CommandStore) : StoreResult :=
  if !s.backend then .storageError
  else if s.readOnly then .readOnly
  else if s.restoreState ≠ 0 then .restoreInProgress
  else .ok

/-- `find_slot_`. -/
def findSlot (s : CommandStore) (name : Bytes) : Option Nat :=
  s.slots.findIdx? fun c => c.occupied && c.name == name

/-- `find_slot_by_id_`. -/
def findSlotById (s : CommandStore) (commandId : UInt32) : Option Nat :=
  if commandId = commandIdNone then none
  else s.slots.findIdx? fun c => c.commandId == commandId

/-- `find_free_slot_`. -/
def findFreeSlot (s : CommandStore) : Option Nat :=
  s.slots.findIdx? fun c => c.commandId == commandIdNone

/-- `used_bytes`. -/
def usedBytes (s : CommandStore) : UInt32 :=
  s.slots.foldl (fun total c =>
      if c.occupied then total + UInt32.ofNat (c.timings.length * 4) else total)
    (indexOverheadBytes s.config.maxCommands)

/-- `projected_bytes_`. -/
def projectedBytes (s : CommandStore) (replacingSlot : Option Nat) (newPulseCount : UInt16) :
    UInt32 :=
  s.slots.zipIdx.foldl (fun total (c, i) =>
      if some i = replacingSlot then total
      else if c.occupied then total + UInt32.ofNat (c.timings.length * 4) else total)
    (indexOverheadBytes s.config.maxCommands)
  + newPulseCount.toUInt32 * 4

/-- `count`. -/
def count (s : CommandStore) : Nat := s.slots.countP Command.occupied

/-- `names`. -/
def names (s : CommandStore) : List Bytes := (s.slots.filter Command.occupied).map Command.name

/-- `entries`. -/
def entries (s : CommandStore) : List CommandEntry :=
  (s.slots.filter Command.occupied).map fun c =>
    ⟨c.commandId, c.name, UInt16.ofNat c.timings.length⟩

/-- `get`. -/
def get (s : CommandStore) (name : Bytes) : Option Command := (s.findSlot name).map s.slot

/-- `get_by_id`. -/
def getById (s : CommandStore) (commandId : UInt32) : Option Command :=
  (s.findSlotById commandId).map s.slot

/-- `has`. -/
def has (s : CommandStore) (name : Bytes) : Bool := (s.findSlot name).isSome

/-- `has_id`. -/
def hasId (s : CommandStore) (commandId : UInt32) : Bool := (s.findSlotById commandId).isSome

end CommandStore

/-! ## The records -/

/-- What `strncpy(slot.name, name.c_str(), NAME_BUF_LEN - 1)` leaves in a zeroed `name`. -/
def strncpyName (name : Bytes) : ByteArr nameBufLen :=
  padTo nameBufLen ((name.takeWhile (· ≠ 0)).take (nameBufLen - 1))

/-- The slot `write_index_` stores for a command. -/
def StoredSlot.ofCommand (c : Command) : StoredSlot :=
  if c.occupied then
    { name := strncpyName c.name
      commandId := c.commandId
      pulseCount := UInt16.ofNat c.timings.length
      repeatTimes := c.repeatTimes
      gapUs := c.gapUs
      frequencyHz := c.frequencyHz
      modulation := c.modulation
      payloadCrc16 := timingsCrc c.timings }
  else {}

namespace CommandStore

/-- The metadata `write_index_` stores. -/
def storedMeta (s : CommandStore) : StoredMeta where
  bridgeId := s.bridgeId
  nextCommandId := s.nextCommandId
  revision := s.revision
  restoreState := s.restoreState
  reserved := ⟨[0, 0, 0], rfl⟩

/-- The slots `write_index_` stores. -/
def storedSlots (s : CommandStore) : List StoredSlot :=
  (List.range s.config.maxCommands.toNat).map fun i => StoredSlot.ofCommand (s.slot i)

/-- The index record, before its CRC. -/
def indexBody (s : CommandStore) : Bytes :=
  StoredMeta.codec.encode s.storedMeta ++ StoredSlot.codec.encodeAll s.storedSlots

/-- The index record `write_index_` saves. -/
def indexRecord (s : CommandStore) : Bytes := s.indexBody ++ le16.encode (crc16Ccitt s.indexBody)

/-- The header `write_index_` saves, before its CRC is filled in. -/
def blankHeader (cfg : Config) : StoredHeader where
  magic := storeMagic
  formatVersion := storeFormatVersion
  slotCount := cfg.maxCommands
  indexBytes := UInt16.ofNat (indexBytesFor cfg.maxCommands)
  reserved := 0
  crc16 := 0

/-- `crc16_ccitt(&header, sizeof(header) - CRC_BYTES)`. -/
def headerCrc (header : StoredHeader) : UInt16 :=
  crc16Ccitt ((StoredHeader.codec.encode header).take (StoredHeader.codec.width - crcBytes))

/-- The header record `write_index_` saves. -/
def headerRecord (cfg : Config) : Bytes :=
  StoredHeader.codec.encode { blankHeader cfg with crc16 := headerCrc (blankHeader cfg) }

variable {σ : Type} (B : StorageBackend UInt32 σ)

/-- `write_payload_`. -/
def writePayload (s : CommandStore) (slot : Nat) (io : σ) : Bool × σ :=
  B.save (s.config.payloadKey (UInt8.ofNat slot)) (timingsBytes (s.slot slot).timings) io

/-- `write_index_`: the index, then the header that describes it. -/
def writeIndex (s : CommandStore) (io : σ) : Bool × σ :=
  match B.save s.config.indexKey s.indexRecord io with
  | (false, io) => (false, io)
  | (true, io) => B.save s.config.headerKey (headerRecord s.config) io

end CommandStore

/-! ## Plans -/

/-- What an operation has decided to do when it reaches its writes: return early, or write `next`
    (and before it the payload of one slot), keeping `undone` if a write fails. -/
inductive Plan where
  | stop (result : StoreResult)
  | write (payload : Option Nat) (next undone : CommandStore)
  deriving DecidableEq, Repr

/-- The writes of an operation: `!write_payload_(slot) || !write_index_()`, or the index alone. -/
def CommandStore.writeAll {σ : Type} (B : StorageBackend UInt32 σ) (s : CommandStore)
    (payload : Option Nat) (io : σ) : Bool × σ :=
  match payload with
  | none => s.writeIndex B io
  | some slot =>
    match s.writePayload B slot io with
    | (false, io) => (false, io)
    | (true, io) => s.writeIndex B io

/-- The tail every mutation shares: write, roll back on a failure, and sync on success.  The
    result of `sync` is not looked at. -/
def Plan.perform {σ : Type} (B : StorageBackend UInt32 σ) (s : CommandStore) (io : σ) :
    Plan → StoreResult × CommandStore × σ
  | .stop result => (result, s, io)
  | .write payload next undone =>
    match next.writeAll B payload io with
    | (false, io) => (.storageError, undone, io)
    | (true, io) => (.ok, next, (B.sync io).2)

namespace CommandStore

/-! ## The mutations -/

/-- The slot `put` writes to: that of the command of the same name, keeping its id, or a free one
    under the next id. -/
def putSlot (s : CommandStore) (name : Bytes) : Except StoreResult (Nat × Bool × UInt32) :=
  match s.findSlot name with
  | some slot => .ok (slot, true, (s.slot slot).commandId)
  | none =>
    match s.findFreeSlot with
    | none => .error .storeFull
    | some slot =>
      if s.nextCommandId > commandIdLast then .error .idExhausted
      else .ok (slot, false, s.nextCommandId)

/-- `put`, up to its writes. -/
def putPlan (s : CommandStore) (command : Command) : Plan :=
  if s.writable ≠ .ok then .stop s.writable
  else if validateName command.name ≠ .ok then .stop (validateName command.name)
  else if command.timings.isEmpty then .stop .tooManyPulses
  else if command.timings.length > s.config.maxPulses.toNat then .stop .tooManyPulses
  else
    match s.putSlot command.name with
    | .error result => .stop result
    | .ok (slot, overwriting, commandId) =>
      if s.projectedBytes (if overwriting then some slot else none)
          (UInt16.ofNat command.timings.length) > s.config.maxStorageBytes then
        .stop .budgetExceeded
      else
        match nextRevision s.revision with
        | none => .stop .revisionExhausted
        | some committedRevision =>
          let next : CommandStore :=
            { s with
              slots := s.slots.set slot { command with commandId := commandId }
              nextCommandId := if overwriting then s.nextCommandId else commandId + 1
              revision := committedRevision }
          .write (some slot) next
            { next with
              slots := next.slots.set slot (s.slot slot)
              nextCommandId := s.nextCommandId
              revision := s.revision }

/-- `rename`, up to its writes. -/
def renamePlan (s : CommandStore) (commandId : UInt32) (newName : Bytes) : Plan :=
  if s.writable ≠ .ok then .stop s.writable
  else if validateName newName ≠ .ok then .stop (validateName newName)
  else
    match s.findSlotById commandId with
    | none => .stop .notFound
    | some slot =>
      -- renaming to the current name is a no-op, not worth a write
      if (s.slot slot).name = newName then .stop .ok
      else if (s.findSlot newName).isSome then .stop .nameTaken
      else
        match nextRevision s.revision with
        | none => .stop .revisionExhausted
        | some committedRevision =>
          let next : CommandStore :=
            { s with
              slots := s.slots.set slot { s.slot slot with name := newName }
              revision := committedRevision }
          .write none next
            { next with
              slots := next.slots.set slot { next.slot slot with name := (s.slot slot).name }
              revision := s.revision }

/-- `remove_by_id`, up to its writes. -/
def removeByIdPlan (s : CommandStore) (commandId : UInt32) : Plan :=
  if s.writable ≠ .ok then .stop s.writable
  else
    match s.findSlotById commandId with
    | none => .stop .notFound
    | some slot =>
      match nextRevision s.revision with
      | none => .stop .revisionExhausted
      | some committedRevision =>
        let next : CommandStore :=
          { s with slots := s.slots.set slot {}, revision := committedRevision }
        .write none next
          { next with slots := next.slots.set slot (s.slot slot), revision := s.revision }

/-- `remove`, up to the writes of the `remove_by_id` it ends in. -/
def removePlan (s : CommandStore) (name : Bytes) : Plan :=
  if s.writable ≠ .ok then .stop s.writable
  else
    match s.findSlot name with
    | none => .stop .notFound
    | some slot => s.removeByIdPlan (s.slot slot).commandId

/-- `clear_all`, up to its writes. -/
def clearAllPlan (s : CommandStore) : Plan :=
  if !s.backend then .stop .storageError
  else if s.readOnly then .stop .readOnly
  -- an empty registry with an open restore is worth the write: clearing abandons the restore
  else if s.count = 0 ∧ s.restoreState = 0 then .stop .ok
  else
    match nextRevision s.revision with
    | none => .stop .revisionExhausted
    | some committedRevision =>
      let next : CommandStore :=
        { s with
          slots := List.replicate s.config.maxCommands.toNat {}
          restoreState := 0
          revision := committedRevision }
      .write none next
        { next with slots := s.slots, restoreState := s.restoreState, revision := s.revision }

/-- `factory_reset`, up to its writes.  Runs in read-only mode too, and has no rollback: a failed
    write leaves the emptied registry and the new identity in RAM. -/
def factoryResetPlan (s : CommandStore) (random : Option BridgeId) : Plan :=
  if !s.backend then .stop .storageError
  else
    let reset : CommandStore :=
      { s with slots := List.replicate s.config.maxCommands.toNat {} }.mintIdentity random
    .write none { reset with readOnly := false, fault := .none } reset

/-- `restore_begin`, up to its writes. -/
def restoreBeginPlan (s : CommandStore) (bridgeId : BridgeId) (nextCommandId : UInt32) : Plan :=
  if !s.backend then .stop .storageError
  else if s.readOnly then .stop .readOnly
  else if s.count ≠ 0 then .stop .restoreNotEmpty
  -- the counter of the argument is checked for its range, not against the one in RAM
  else if nextCommandId < commandIdFirst ∨ nextCommandId > commandIdLast + 1 then .stop .idConflict
  else
    match nextRevision s.revision with
    | none => .stop .revisionExhausted
    | some committedRevision =>
      let next : CommandStore :=
        { s with
          bridgeId := bridgeId
          nextCommandId := nextCommandId
          restoreState := 1
          revision := committedRevision }
      .write none next
        { next with
          bridgeId := s.bridgeId
          nextCommandId := s.nextCommandId
          restoreState := s.restoreState
          revision := s.revision }

/-- `import_command`, up to its writes. -/
def importCommandPlan (s : CommandStore) (command : Command) : Plan :=
  if !s.backend then .stop .storageError
  else if s.readOnly then .stop .readOnly
  else if s.restoreState = 0 then .stop .restoreNotActive
  else if validateName command.name ≠ .ok then .stop (validateName command.name)
  else if command.commandId = commandIdNone ∨ command.commandId ≥ s.nextCommandId
      ∨ s.hasId command.commandId then .stop .idConflict
  else if s.has command.name then .stop .nameTaken
  else if command.timings.isEmpty ∨ command.timings.length > s.config.maxPulses.toNat then
    .stop .tooManyPulses
  else
    match s.findFreeSlot with
    | none => .stop .storeFull
    | some slot =>
      if s.projectedBytes none (UInt16.ofNat command.timings.length) > s.config.maxStorageBytes then
        .stop .budgetExceeded
      else
        match nextRevision s.revision with
        | none => .stop .revisionExhausted
        | some committedRevision =>
          let next : CommandStore :=
            { s with slots := s.slots.set slot command, revision := committedRevision }
          .write (some slot) next
            { next with slots := next.slots.set slot {}, revision := s.revision }

/-- `restore_commit`, up to its writes. -/
def restoreCommitPlan (s : CommandStore) (sourceRevision : UInt32) : Plan :=
  if !s.backend then .stop .storageError
  else if s.readOnly then .stop .readOnly
  else if s.restoreState = 0 then .stop .restoreNotActive
  else
    -- the registry goes on from whichever of the two sequences is ahead
    match nextRevision (if sourceRevision > s.revision then sourceRevision else s.revision) with
    | none => .stop .revisionExhausted
    | some committedRevision =>
      let next : CommandStore := { s with restoreState := 0, revision := committedRevision }
      .write none next { next with restoreState := 1, revision := s.revision }

end CommandStore

/-! ## Operations as data -/

/-- A mutating call on the store, with its arguments. -/
inductive Op where
  | put (command : Command)
  | rename (commandId : UInt32) (newName : Bytes)
  | remove (name : Bytes)
  | removeById (commandId : UInt32)
  | clearAll
  | factoryReset (random : Option BridgeId)
  | restoreBegin (bridgeId : BridgeId) (nextCommandId : UInt32)
  | importCommand (command : Command)
  | restoreCommit (sourceRevision : UInt32)
  deriving DecidableEq, Repr

/-- The operation, up to its writes. -/
def Op.plan : Op → CommandStore → Plan
  | .put command, s => s.putPlan command
  | .rename commandId newName, s => s.renamePlan commandId newName
  | .remove name, s => s.removePlan name
  | .removeById commandId, s => s.removeByIdPlan commandId
  | .clearAll, s => s.clearAllPlan
  | .factoryReset random, s => s.factoryResetPlan random
  | .restoreBegin bridgeId nextCommandId, s => s.restoreBeginPlan bridgeId nextCommandId
  | .importCommand command, s => s.importCommandPlan command
  | .restoreCommit sourceRevision, s => s.restoreCommitPlan sourceRevision

/-- The operation on a backend. -/
def Op.run {σ : Type} (B : StorageBackend UInt32 σ) (op : Op) (s : CommandStore) (io : σ) :
    StoreResult × CommandStore × σ :=
  (op.plan s).perform B s io

/-- An operation that stops changes nothing. -/
theorem Op.run_of_stop {σ : Type} {B : StorageBackend UInt32 σ} {op : Op} {s : CommandStore}
    {result : StoreResult} (hplan : op.plan s = .stop result) (io : σ) :
    op.run B s io = (result, s, io) := by
  rw [Op.run, hplan]
  rfl

end RfCloner
