/-
  The records an operation writes, and the codec law across configurations.

  `write_payload_` and `write_index_` are sequences of saves, so the outcome of a write is the
  application of a prefix of `CommandStore.records`.  `Image.of_apply` says when a whole write
  leaves an image of the store it was made for, and `codec_law` reads such an image back under any
  other configuration of the same key salt.
-/
import Mathlib.Data.List.Nodup
import RfCloner.Store.Codec

namespace RfCloner

open FixedCodec StorageBackend

namespace CommandStore

/-! ## Writes as sequences of saves -/

section Records

variable (s : CommandStore)

/-- What `write_payload_` saves. -/
def payloadRecord (slot : Nat) : UInt32 × Bytes :=
  (s.config.payloadKey (UInt8.ofNat slot), timingsBytes (s.slot slot).timings)

/-- What `write_index_` saves: the index, then the header. -/
def indexRecords : List (UInt32 × Bytes) :=
  [(s.config.indexKey, s.indexRecord), (s.config.headerKey, headerRecord s.config)]

/-- What an operation saves. -/
def records (payload : Option Nat) : List (UInt32 × Bytes) :=
  (payload.map s.payloadRecord).toList ++ s.indexRecords

theorem records_none : s.records none = s.indexRecords := rfl

theorem records_some (i : Nat) : s.records (some i) = s.payloadRecord i :: s.indexRecords := rfl

variable {σ : Type} (B : StorageBackend UInt32 σ)

theorem writeIndex_eq_saveAll (io : σ) : s.writeIndex B io = B.saveAll s.indexRecords io := by
  rw [writeIndex, indexRecords, saveAll]
  rcases B.save s.config.indexKey s.indexRecord io with ⟨_ | _, io'⟩
  · rfl
  · show B.save s.config.headerKey (headerRecord s.config) io' = saveAll B [_] io'
    rw [saveAll]
    rcases B.save s.config.headerKey (headerRecord s.config) io' with ⟨_ | _, io''⟩ <;> rfl

theorem writeAll_eq_saveAll (payload : Option Nat) (io : σ) :
    s.writeAll B payload io = B.saveAll (s.records payload) io := by
  cases payload with
  | none => exact s.writeIndex_eq_saveAll B io
  | some slot =>
    show s.writeAll B (some slot) io = saveAll B (s.payloadRecord slot :: s.indexRecords) io
    rw [saveAll, writeAll, writePayload, payloadRecord]
    rcases B.save _ _ io with ⟨_ | _, io'⟩
    · rfl
    · exact s.writeIndex_eq_saveAll B io'

/-- A mutation that writes, by whether its saves succeed. -/
theorem run_of_write {op : Op} {s next undone : CommandStore} {payload : Option Nat}
    (hplan : op.plan s = .write payload next undone) (io : σ) :
    op.run B s io =
      if (B.saveAll (next.records payload) io).1 then
        (.ok, next, (B.sync (B.saveAll (next.records payload) io).2).2)
      else (.storageError, undone, (B.saveAll (next.records payload) io).2) := by
  rw [Op.run, hplan, Plan.perform, writeAll_eq_saveAll]
  rcases B.saveAll (next.records payload) io with ⟨_ | _, io'⟩ <;> rfl

/-- Saving the payloads of the listed slots, in order. -/
def writePayloads : List Nat → σ → Bool × σ
  | [], io => (true, io)
  | slot :: slots, io =>
    match s.writePayload B slot io with
    | (false, io) => (false, io)
    | (true, io) => writePayloads slots io

/-- The slots that hold a command. -/
def occupiedSlots : List Nat :=
  (List.range s.config.maxCommands.toNat).filter fun i => (s.slot i).occupied

/-- A whole registry: the payload of every occupied slot, then the index and the header. -/
def writeRegistry (io : σ) : Bool × σ :=
  match s.writePayloads B s.occupiedSlots io with
  | (false, io) => (false, io)
  | (true, io) => s.writeIndex B io

theorem writePayloads_eq_saveAll (slots : List Nat) (io : σ) :
    s.writePayloads B slots io = B.saveAll (slots.map s.payloadRecord) io := by
  induction slots generalizing io with
  | nil => rfl
  | cons slot slots ih =>
    rw [writePayloads, List.map_cons, payloadRecord, saveAll, writePayload]
    rcases B.save _ _ io with ⟨_ | _, io'⟩
    · rfl
    · exact ih io'

end Records

/-! ## What a whole write leaves behind -/

section Apply

variable {s : CommandStore} {r : Records UInt32}

theorem apply_indexRecords :
    r.apply s.indexRecords
      = (r.save s.config.indexKey s.indexRecord).save s.config.headerKey (headerRecord s.config) :=
  rfl

theorem apply_indexRecords_index :
    r.apply s.indexRecords s.config.indexKey = some s.indexRecord := by
  rw [apply_indexRecords, Records.save_of_ne s.config.headerKey_ne_indexKey.symm,
    Records.save_self]

theorem apply_indexRecords_header :
    r.apply s.indexRecords s.config.headerKey = some (headerRecord s.config) := by
  rw [apply_indexRecords, Records.save_self]

theorem apply_indexRecords_payload (i : UInt8) :
    r.apply s.indexRecords (s.config.payloadKey i) = r (s.config.payloadKey i) := by
  rw [apply_indexRecords, Records.save_of_ne (s.config.payloadKey_ne_headerKey i),
    Records.save_of_ne (s.config.payloadKey_ne_indexKey i)]

/-- The index and the header complete an image once the payloads are there. -/
theorem Image.of_apply_indexRecords (hpos : s.config.maxCommands ≠ 0)
    (hpay : ∀ i < s.config.maxCommands.toNat, (s.slot i).occupied = true →
      r (s.config.payloadKey (UInt8.ofNat i)) = some (timingsBytes (s.slot i).timings)) :
    Image (r.apply s.indexRecords) s where
  header := ⟨headerRecord s.config,
    Records.load_eq_some.mpr ⟨apply_indexRecords_header, length_headerRecord _⟩,
    headerStates_headerRecord _ hpos⟩
  index := apply_indexRecords_index
  payloads := by
    intro i hi hocc
    rw [apply_indexRecords_payload]
    exact hpay i hi hocc

/-- The payloads of the listed slots are on flash once they have been saved, and no other record
    has changed. -/
theorem apply_payloadRecords {slots : List Nat} (hlt : ∀ i ∈ slots, i < 256) (hnd : slots.Nodup)
    {i : Nat} (hi : i ∈ slots) :
    r.apply (slots.map s.payloadRecord) (s.config.payloadKey (UInt8.ofNat i))
      = some (timingsBytes (s.slot i).timings) := by
  apply Records.apply_of_mem
  · rw [List.map_map]
    refine hnd.map_on ?_
    intro j hj k hk hkey
    by_contra hne
    exact s.config.payloadKey_ne_payloadKey (hlt j hj) (hlt k hk) hne hkey
  · exact List.mem_map.mpr ⟨i, hi, rfl⟩

end Apply

/-! ## The codec law across configurations -/

/-- A registry that can be written: every command has an id of its own, a valid name of its own
    and a waveform whose length fits its field. -/
structure WellFormed (s : CommandStore) : Prop where
  sized : s.slots.length = s.config.maxCommands.toNat
  ids_nodup : (s.commands.map Command.commandId).Nodup
  names_nodup : (s.commands.map Command.name).Nodup
  names_valid : ∀ c ∈ s.commands, validateName c.name = .ok
  timings_pos : ∀ c ∈ s.commands, 0 < c.timings.length
  timings_lt : ∀ c ∈ s.commands, c.timings.length < 2 ^ 16

section CodecLaw

variable {s : CommandStore}

theorem slot_mem_commands {i : Nat} (hocc : (s.slot i).occupied = true) :
    s.slot i ∈ s.commands :=
  SlotTable.get_mem_content hocc

theorem WellFormed.storable (hwf : s.WellFormed) {c : Command} (hc : c ∈ s.commands) :
    Storable c :=
  Storable.of_valid (hwf.names_valid c hc) (hwf.timings_pos c hc) (hwf.timings_lt c hc)

theorem WellFormed.storable_slot (hwf : s.WellFormed) (i : Nat)
    (hocc : (s.slot i).occupied = true) : Storable (s.slot i) :=
  hwf.storable (slot_mem_commands hocc)

/-- Writing a whole registry on a sound medium leaves its image there. -/
theorem WellFormed.image_writeRegistry (hpos : s.config.maxCommands ≠ 0) (st : Fake UInt32) :
    Image (s.writeRegistry sound st).2.records s := by
  have hmax : s.config.maxCommands.toNat < 256 := s.config.maxCommands.toNat_lt
  have hlt : ∀ i ∈ s.occupiedSlots, i < 256 := by
    intro i hi
    have := List.mem_range.mp (List.mem_filter.mp hi).1
    omega
  rw [writeRegistry, writePayloads_eq_saveAll, saveAll_sound]
  show Image (s.writeIndex sound _).2.records s
  rw [writeIndex_eq_saveAll, saveAll_sound]
  refine Image.of_apply_indexRecords hpos ?_
  intro i hi hocc
  exact apply_payloadRecords hlt (List.nodup_range.filter _)
    (List.mem_filter.mpr ⟨List.mem_range.mpr hi, hocc⟩)

/-- The slots of an image that a reader drops are the occupied ones that do not fit it. -/
theorem Image.countUnfittable {r : Records UInt32} {cfg : Config} (him : Image r s)
    (hst : ∀ i, (s.slot i).occupied = true → Storable (s.slot i))
    (hsalt : cfg.keySalt = s.config.keySalt) :
    countOutcome SlotOutcome.isUnfittable (outcomeAt r.load s.indexRecord cfg)
        s.config.maxCommands.toNat
      = s.occupiedSlots.countP fun i => !s.fitsSlot cfg i := by
  rw [countOutcome, occupiedSlots, List.countP_filter]
  apply List.countP_congr
  intro i hi
  rw [him.outcome hst hsalt (List.mem_range.mp hi)]
  cases (s.slot i).occupied <;> cases s.fitsSlot cfg i <;> simp [SlotOutcome.isUnfittable]

end CodecLaw

/-- **The codec law of the flash format.**  A registry written under one configuration and read
    under another of the same key salt is read without a save and without entering read-only mode;
    its metadata comes back exactly, and slot by slot each command that fits the reader comes back
    unchanged while the others are counted as dropped.  A reader with room for everything reads the
    registry that was written. -/
theorem codec_law {s : CommandStore} (hwf : s.WellFormed) (hpos : s.config.maxCommands ≠ 0)
    (cfg : Config) (hsalt : cfg.keySalt = s.config.keySalt) (lands : Nat → Bool)
    (st : Fake UInt32) (random : Option BridgeId) :
    let flash := (s.writeRegistry sound st).2
    let out := boot (faulty lands) cfg random flash
    out.1.readOnly = false ∧ out.2.1.readOnly = false ∧ out.2.2 = flash ∧
    out.2.1.bridgeId = s.bridgeId ∧ out.2.1.nextCommandId = s.nextCommandId ∧
    out.2.1.revision = s.revision ∧ out.2.1.restoreState = s.restoreState ∧
    (∀ i, out.2.1.slot i = if (s.slot i).occupied && s.fitsSlot cfg i then s.slot i else {}) ∧
    out.1.droppedUnfittable.toNat = s.occupiedSlots.countP (fun i => !s.fitsSlot cfg i) ∧
    (s.config.maxCommands ≤ cfg.maxCommands →
      (∀ c ∈ s.commands, c.timings.length ≤ cfg.maxPulses.toNat) →
      out.2.1.commands = s.commands) := by
  intro flash out
  have him : Image flash.records s := WellFormed.image_writeRegistry hpos st
  have hst := hwf.storable_slot
  obtain ⟨hboot, hro, hdropped⟩ := boot_of_readable flash.records.load cfg (faulty lands) flash rfl random
    (him.readable hst hsalt)
  have hmeta : storedMetaOf s.indexRecord = s.storedMeta := storedMetaOf_indexRecord s
  have hslot := him.slot_decoded cfg hst hsalt hwf.sized
  have hout : out.2 = (decoded flash.records.load cfg s.config.maxCommands s.indexRecord, flash) :=
    hboot
  rw [hout]
  refine ⟨hro, rfl, rfl, ?_, ?_, ?_, ?_, hslot, ?_, ?_⟩
  · exact congrArg StoredMeta.bridgeId hmeta
  · exact congrArg StoredMeta.nextCommandId hmeta
  · exact congrArg StoredMeta.revision hmeta
  · exact congrArg StoredMeta.restoreState hmeta
  · -- the count of dropped commands is a byte
    have hle := countOutcome_le SlotOutcome.isUnfittable
      (outcomeAt flash.records.load s.indexRecord cfg) s.config.maxCommands.toNat
    have hm : s.config.maxCommands.toNat < 256 := s.config.maxCommands.toNat_lt
    rw [← him.countUnfittable hst hsalt, hdropped, UInt8.toNat_ofNat',
      Nat.mod_eq_of_lt (Nat.lt_of_le_of_lt hle hm)]
  · intro hle hpulses
    apply SlotTable.content_congr
    intro i
    refine (hslot i).trans ?_
    show _ = if (s.slot i).occupied then s.slot i else {}
    cases hocc : (s.slot i).occupied with
    | false => rfl
    | true =>
      have hi : i < s.config.maxCommands.toNat := hwf.sized ▸ lt_of_slot_occupied hocc
      have hle' : s.config.maxCommands.toNat ≤ cfg.maxCommands.toNat := UInt8.le_iff_toNat_le.mp hle
      have hfit : s.fitsSlot cfg i = true := by
        rw [fitsSlot, Bool.and_eq_true, decide_eq_true_eq, decide_eq_true_eq]
        exact ⟨by omega, hpulses _ (slot_mem_commands hocc)⟩
      rw [hfit]
      rfl

/-- Two commands in a registry of three slots, the second one in the last slot. -/
def sampleRegistry : CommandStore :=
  { configure ⟨3, 4, 64, 7⟩ with
    bridgeId := BridgeId.zero
    nextCommandId := 9
    revision := 5
    slots := [
      { commandId := 4, name := ascii "on", timings := [350, -1050] },
      {},
      { commandId := 8, name := ascii "off", timings := [-1, 2, 3] }] }

/-- A reader with two slots gets the first command and drops the other. -/
theorem codec_law_fewer_slots :
    let out := boot (faulty fun _ => true) ⟨2, 4, 64, 7⟩ none
      (sampleRegistry.writeRegistry sound ⟨fun _ => none, 0⟩).2
    out.2.1.slot 0 = sampleRegistry.slot 0 ∧ out.2.1.slot 2 = {} ∧
      out.1.droppedUnfittable.toNat = 1 := by
  have hwf : sampleRegistry.WellFormed := by
    constructor <;> decide
  obtain ⟨-, -, -, -, -, -, -, hslot, hdropped, -⟩ :=
    codec_law hwf (by decide) ⟨2, 4, 64, 7⟩ rfl (fun _ => true) ⟨fun _ => none, 0⟩ none
  generalize boot (faulty fun _ => true) ⟨2, 4, 64, 7⟩ none
    (sampleRegistry.writeRegistry sound ⟨fun _ => none, 0⟩).2 = out at hslot hdropped ⊢
  refine ⟨?_, ?_, ?_⟩
  · rw [hslot 0]
    decide
  · rw [hslot 2]
    decide
  · rw [hdropped]
    decide

end CommandStore

end RfCloner
