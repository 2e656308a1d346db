/-
  The data of the command store (`components/rf_cloner/command_store.h`).

  A command is identified by an immutable `commandId`; its name is mutable metadata.  The registry
  as a whole carries a `bridgeId` that is independent of the board.  Machine integers keep their
  widths; a `std::string` is its bytes; a `std::vector` is a list.
-/
import RfCloner.Lib.FixedCodec
import RfCloner.Lib.SlotTable

namespace RfCloner

/-! ## Constants -/

/-- `NAME_BUF_LEN`: 23 usable characters plus NUL. -/
def nameBufLen : Nat := 24
/-- `NAME_MAX_CHARS`. -/
def nameMaxChars : Nat := nameBufLen - 1

/-- `BRIDGE_ID_BYTES`. -/
def bridgeIdBytes : Nat := 16

/-- `COMMAND_ID_NONE`: not a valid command id; marks a free slot. -/
def commandIdNone : UInt32 := 0
/-- `COMMAND_ID_FIRST`. -/
def commandIdFirst : UInt32 := 1
/-- `COMMAND_ID_LAST`: the highest assignable id. -/
def commandIdLast : UInt32 := 0xFFFFFFFE

/-- `REVISION_INITIAL`: the revision of a registry written for the first time. -/
def revisionInitial : UInt32 := 1
/-- `REVISION_TERMINAL`: reserved, never persisted. -/
def revisionTerminal : UInt32 := 0x7FFFFFFF
/-- `REVISION_MAX`: the highest revision that is ever written. -/
def revisionMax : UInt32 := revisionTerminal - 1

/-! ## Results and faults -/

/-- `StoreResult`. -/
inductive StoreResult where
  | ok | nameEmpty | nameTooLong | nameInvalid | nameTaken | notFound | storeFull | tooManyPulses
  | budgetExceeded | storageError | readOnly | idExhausted | revisionExhausted | idConflict
  | restoreNotEmpty | restoreNotActive | restoreInProgress
  deriving DecidableEq, Repr

/-- `StoreFault`: why `begin` put the store into read-only mode. -/
inductive StoreFault where
  | none | headerInvalid | indexInvalid | versionUnsupported | payloadInvalid
  deriving DecidableEq, Repr

/-! ## Commands -/

/-- `bridge_id_`: the identity of a logical bridge. -/
abbrev BridgeId := ByteArr bridgeIdBytes

/-- The all-zero identity of a store that has not minted or read one. -/
def BridgeId.zero : BridgeId := ⟨List.replicate bridgeIdBytes 0, List.length_replicate⟩

/-- The identity of one byte throughout. -/
def BridgeId.filled (byte : UInt8) : BridgeId := ⟨List.replicate bridgeIdBytes byte, List.length_replicate⟩

/-- `Command`.  The defaults are those of `Command{}`, which is also what a free slot holds. -/
structure Command where
  commandId : UInt32 := commandIdNone
  name : Bytes := []
  timings : List Int32 := []
  gapUs : UInt32 := 0
  repeatTimes : UInt16 := 1
  frequencyHz : UInt32 := 0
  modulation : UInt8 := 0
  deriving DecidableEq, Repr, Inhabited

/-- Occupied when the command id is not `COMMAND_ID_NONE`. -/
def Command.occupied (c : Command) : Bool := c.commandId != commandIdNone

@[simp] theorem Command.occupied_iff {c : Command} :
    c.occupied = true ↔ c.commandId ≠ commandIdNone := by
  simp [Command.occupied]

instance : Slotted Command := ⟨{}, Command.occupied, rfl⟩

/-- `CommandEntry`: one row of the registry listing, without the waveform. -/
structure CommandEntry where
  commandId : UInt32
  name : Bytes
  pulseCount : UInt16
  deriving DecidableEq, Repr

/-- `LoadReport`: what `begin` found on flash. -/
structure LoadReport where
  hadStoredData : Bool := false
  headerInvalid : Bool := false
  versionMismatch : Bool := false
  slotCountChanged : Bool := false
  restoreIncomplete : Bool := false
  readOnly : Bool := false
  fault : StoreFault := .none
  storedFormatVersion : UInt8 := 0
  storedSlotCount : UInt8 := 0
  loaded : UInt8 := 0
  payloadFaults : UInt8 := 0
  faultSlot : UInt8 := 0
  faultName : Bytes := []
  droppedUnfittable : UInt8 := 0
  deriving DecidableEq, Repr

/-! ## The store -/

/-- What `configure` is given besides the backend. -/
structure Config where
  maxCommands : UInt8
  maxPulses : UInt16
  maxStorageBytes : UInt32
  keySalt : UInt32
  deriving DecidableEq, Repr

/-- `CommandStore`.  `backend` says whether `backend_` points to a backend; the backend itself is
    a parameter of the operations. -/
structure CommandStore where
  backend : Bool
  config : Config
  bridgeId : BridgeId
  nextCommandId : UInt32
  revision : UInt32
  restoreState : UInt8
  readOnly : Bool
  fault : StoreFault
  slots : List Command
  deriving DecidableEq, Repr

/-- `CommandStore::configure` on a new object: a fresh store. -/
def CommandStore.configure (config : Config) : CommandStore where
  backend := true
  config := config
  bridgeId := BridgeId.zero
  nextCommandId := commandIdFirst
  revision := 0
  restoreState := 0
  readOnly := false
  fault := .none
  slots := List.replicate config.maxCommands.toNat {}

end RfCloner
