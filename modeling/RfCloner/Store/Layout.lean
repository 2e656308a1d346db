/-
  The on-flash layout (`command_store.cpp`, the anonymous namespace at its top).

    header  (10 bytes, fixed)     magic, format_version, slot_count, index_bytes, crc
    index   (28 + slots*44 + 2)   registry metadata, one `StoredSlot` per slot, then a crc
    payload (pulse_count * 4)     one record per occupied slot, int32 timings

  The three packed structs are `FixedCodec`s assembled field by field in the source's order, so
  their sizes are computed and their round trips come with them.  Integers are little-endian, as
  on the ESP32 and on the host the tests run on.
-/
import RfCloner.Lib.RecordStore
import RfCloner.Store.Types

namespace RfCloner

open FixedCodec

/-- `STORE_MAGIC`, the letters 'RF'. -/
def storeMagic : UInt16 := 0x5246
/-- `STORE_FORMAT_VERSION`. -/
def storeFormatVersion : UInt8 := 1
/-- `CRC_BYTES`. -/
def crcBytes : Nat := 2

/-! ## The packed structs -/

/-- `StoredHeader`. -/
structure StoredHeader where
  magic : UInt16
  formatVersion : UInt8
  slotCount : UInt8
  indexBytes : UInt16
  reserved : UInt16
  crc16 : UInt16
  deriving DecidableEq, Repr

/-- `StoredMeta`. -/
structure StoredMeta where
  bridgeId : BridgeId
  nextCommandId : UInt32
  revision : UInt32
  restoreState : UInt8
  reserved : ByteArr 3
  deriving DecidableEq, Repr

/-- `StoredSlot`.  The defaults are those of `StoredSlot{}`, a free slot. -/
structure StoredSlot where
  name : ByteArr nameBufLen := ⟨List.replicate nameBufLen 0, List.length_replicate⟩
  commandId : UInt32 := 0
  pulseCount : UInt16 := 0
  repeatTimes : UInt16 := 0
  gapUs : UInt32 := 0
  frequencyHz : UInt32 := 0
  modulation : UInt8 := 0
  flags : UInt8 := 0
  payloadCrc16 : UInt16 := 0
  deriving DecidableEq, Repr

/-- The bytes of a `StoredHeader`. -/
def StoredHeader.codec : FixedCodec StoredHeader :=
  (le16.pair (le8.pair (le8.pair (le16.pair (le16.pair le16))))).map
    { toFun := fun (magic, version, slots, index, reserved, crc) =>
        ⟨magic, version, slots, index, reserved, crc⟩
      invFun := fun h =>
        (h.magic, h.formatVersion, h.slotCount, h.indexBytes, h.reserved, h.crc16)
      left_inv := fun _ => rfl
      right_inv := fun _ => rfl }

/-- The bytes of a `StoredMeta`. -/
def StoredMeta.codec : FixedCodec StoredMeta :=
  ((raw bridgeIdBytes).pair (le32.pair (le32.pair (le8.pair (raw 3))))).map
    { toFun := fun (bridge, next, revision, state, reserved) =>
        ⟨bridge, next, revision, state, reserved⟩
      invFun := fun m => (m.bridgeId, m.nextCommandId, m.revision, m.restoreState, m.reserved)
      left_inv := fun _ => rfl
      right_inv := fun _ => rfl }

/-- The bytes of a `StoredSlot`. -/
def StoredSlot.codec : FixedCodec StoredSlot :=
  ((raw nameBufLen).pair (le32.pair (le16.pair (le16.pair (le32.pair (le32.pair
    (le8.pair (le8.pair le16)))))))).map
    { toFun := fun (name, id, pulses, repeats, gap, freq, modulation, flags, crc) =>
        ⟨name, id, pulses, repeats, gap, freq, modulation, flags, crc⟩
      invFun := fun s =>
        (s.name, s.commandId, s.pulseCount, s.repeatTimes, s.gapUs, s.frequencyHz, s.modulation,
          s.flags, s.payloadCrc16)
      left_inv := fun _ => rfl
      right_inv := fun _ => rfl }

/-- The layout assertions of the source. -/
theorem width_header : StoredHeader.codec.width = 10 := rfl
theorem width_meta : StoredMeta.codec.width = 28 := rfl
theorem width_slot : StoredSlot.codec.width = 44 := rfl

/-- `index_bytes_for`. -/
def indexBytesFor (slotCount : UInt8) : Nat :=
  StoredMeta.codec.width + slotCount.toNat * StoredSlot.codec.width + crcBytes

theorem indexBytesFor_eq (n : UInt8) : indexBytesFor n = 30 + n.toNat * 44 := by
  rw [indexBytesFor, width_meta, width_slot, crcBytes]
  omega

theorem indexBytesFor_lt (n : UInt8) : indexBytesFor n < 2 ^ 16 := by
  have hn : n.toNat < 256 := n.toNat_lt
  rw [indexBytesFor_eq]
  omega

theorem indexBytesFor_inj {m n : UInt8} (h : indexBytesFor m = indexBytesFor n) : m = n := by
  rw [indexBytesFor_eq, indexBytesFor_eq] at h
  exact UInt8.toNat_inj.mp (by omega)

/-! ## Record keys -/

/-- `fnv1a_32`, over the characters of a C string. -/
def fnv1a32 (text : Bytes) : UInt32 :=
  text.foldl (fun hash byte => (hash ^^^ byte.toUInt32) * 16777619) 2166136261

/-- The characters of an ASCII literal. -/
def ascii (text : String) : Bytes := text.toList.map Char.toUInt8

/-- `KEY_HEADER`. -/
def keyHeader : UInt32 := fnv1a32 (ascii "rf_cloner/hdr/v1")
/-- `KEY_INDEX`. -/
def keyIndex : UInt32 := fnv1a32 (ascii "rf_cloner/idx/v1")
/-- `KEY_PAYLOAD_BASE`. -/
def keyPayloadBase : UInt32 := fnv1a32 (ascii "rf_cloner/pl/v1")

/-- `payload_key`. -/
def payloadKey (slot : UInt8) : UInt32 := keyPayloadBase ^^^ (0x9E3779B9 * (slot.toUInt32 + 1))

/-- `CommandStore::header_key_`. -/
def Config.headerKey (cfg : Config) : UInt32 := keyHeader ^^^ cfg.keySalt
/-- `CommandStore::index_key_`. -/
def Config.indexKey (cfg : Config) : UInt32 := keyIndex ^^^ cfg.keySalt
/-- `CommandStore::payload_key_`. -/
def Config.payloadKey (cfg : Config) (slot : UInt8) : UInt32 := RfCloner.payloadKey slot ^^^ cfg.keySalt

theorem payloadKey_ne_other : ∀ i : Fin 256,
    payloadKey (UInt8.ofFin i) ≠ keyHeader ∧ payloadKey (UInt8.ofFin i) ≠ keyIndex := by
  decide +kernel

/-- The payload keys of two slots differ in their low byte already: the multiplier of `payload_key` is
    odd, so it can be divided out again. -/
theorem payloadKey_low_inj {i j : UInt8} (h : (payloadKey i).toUInt8 = (payloadKey j).toUInt8) :
    i = j := by
  rw [payloadKey, payloadKey, UInt32.toUInt8_xor, UInt32.toUInt8_xor] at h
  have hmul : (0xB9 : UInt8) * (i + 1) = 0xB9 * (j + 1) := by
    have hlow := (UInt8.xor_right_inj _).mp h
    have hmultiplier : (0x9E3779B9 : UInt32).toUInt8 = 0xB9 := by decide
    have hone : (1 : UInt32).toUInt8 = 1 := by decide
    simpa only [UInt32.toUInt8_mul, UInt32.toUInt8_add, UInt8.toUInt8_toUInt32, hmultiplier, hone]
      using hlow
  have hinv : (0x89 : UInt8) * 0xB9 = 1 := by decide
  have hcancel := congrArg (fun x => (0x89 : UInt8) * x) hmul
  rw [← UInt8.mul_assoc, ← UInt8.mul_assoc, hinv, UInt8.one_mul, UInt8.one_mul] at hcancel
  exact (UInt8.add_left_inj 1).mp hcancel

theorem payloadKey_inj {i j : UInt8} (h : payloadKey i = payloadKey j) : i = j :=
  payloadKey_low_inj (congrArg UInt32.toUInt8 h)

namespace Config

variable (cfg : Config)

theorem headerKey_ne_indexKey : cfg.headerKey ≠ cfg.indexKey := by
  intro h
  exact absurd ((UInt32.xor_left_inj cfg.keySalt).mp h) (by decide)

theorem payloadKey_ne_headerKey (i : UInt8) : cfg.payloadKey i ≠ cfg.headerKey := by
  intro h
  exact (payloadKey_ne_other i.toFin).1 ((UInt32.xor_left_inj cfg.keySalt).mp h)

theorem payloadKey_ne_indexKey (i : UInt8) : cfg.payloadKey i ≠ cfg.indexKey := by
  intro h
  exact (payloadKey_ne_other i.toFin).2 ((UInt32.xor_left_inj cfg.keySalt).mp h)

/-- The payload records of two slots of one store are different records. -/
theorem payloadKey_ne_payloadKey {i j : Nat} (hi : i < 256) (hj : j < 256) (hij : i ≠ j) :
    cfg.payloadKey (UInt8.ofNat i) ≠ cfg.payloadKey (UInt8.ofNat j) := by
  intro h
  have hkey := payloadKey_inj ((UInt32.xor_left_inj cfg.keySalt).mp h)
  have hnat := congrArg UInt8.toNat hkey
  rw [UInt8.toNat_ofNat', UInt8.toNat_ofNat', Nat.mod_eq_of_lt hi, Nat.mod_eq_of_lt hj] at hnat
  exact hij hnat

end Config

/-! ## CRC -/

/-- One step of the inner loop of `crc16_ccitt`. -/
def crcBit (crc : UInt16) : UInt16 :=
  if crc &&& 0x8000 ≠ 0 then (crc <<< 1) ^^^ 0x1021 else crc <<< 1

/-- One byte of `crc16_ccitt`. -/
def crcByte (crc : UInt16) (byte : UInt8) : UInt16 :=
  (List.range 8).foldl (fun c _ => crcBit c) (crc ^^^ (byte.toUInt16 <<< 8))

/-- `crc16_ccitt`. -/
def crc16Ccitt (data : Bytes) : UInt16 := data.foldl crcByte 0xFFFF

/-- The bytes of a waveform in memory, which are also its payload record. -/
def timingsBytes (timings : List Int32) : Bytes := sle32.encodeAll timings

@[simp] theorem length_timingsBytes (timings : List Int32) :
    (timingsBytes timings).length = timings.length * 4 :=
  sle32.length_encodeAll timings

/-- `timings_crc`. -/
def timingsCrc (timings : List Int32) : UInt16 :=
  if timings.isEmpty then 0 else crc16Ccitt (timingsBytes timings)

/-- The published check value of CRC-16/CCITT. -/
example : crc16Ccitt (ascii "123456789") = 0x29B1 := by decide +kernel

end RfCloner
