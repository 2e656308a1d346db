/-
  What is written can be read: the codec law of the flash format.

  `Image r s` says that the records `r` are those `write_index_` and `write_payload_` leave for the
  store `s`.  `Image.outcome` is the law for one slot, for every reading configuration that shares
  the key salt; `Image.boot` puts the slots together.  Everything the crash, durability and
  refinement results need about bytes is in these two.
-/
import Mathlib.Data.List.TakeWhile
import RfCloner.Store.Load

namespace RfCloner

open FixedCodec

/-! ## The header -/

theorem headerRecord_take (h : StoredHeader) (crc : UInt16) :
    (StoredHeader.codec.encode { h with crc16 := crc }).take (StoredHeader.codec.width - crcBytes)
      = (StoredHeader.codec.encode h).take (StoredHeader.codec.width - crcBytes) := by
  have hsplit : ∀ crc : UInt16, StoredHeader.codec.encode { h with crc16 := crc }
      = (le16.encode h.magic ++ le8.encode h.formatVersion ++ le8.encode h.slotCount
          ++ le16.encode h.indexBytes ++ le16.encode h.reserved) ++ le16.encode crc := by
    intro crc
    simp only [List.append_assoc]
    rfl
  have hlen : (le16.encode h.magic ++ le8.encode h.formatVersion ++ le8.encode h.slotCount
      ++ le16.encode h.indexBytes ++ le16.encode h.reserved).length
        = StoredHeader.codec.width - crcBytes := by
    simp only [List.length_append, length_encode]
    rfl
  have hh := hsplit h.crc16
  rw [hsplit crc, List.take_left' hlen]
  exact (hh ▸ (List.take_left' hlen).symm :)

theorem length_headerRecord (cfg : Config) :
    (CommandStore.headerRecord cfg).length = StoredHeader.codec.width :=
  StoredHeader.codec.length_encode _

/-- The header `write_index_` saves is one `begin` accepts. -/
theorem headerStates_headerRecord (cfg : Config) (hpos : cfg.maxCommands ≠ 0) :
    CommandStore.HeaderStates (CommandStore.headerRecord cfg) cfg.maxCommands := by
  have hdec : StoredHeader.codec.decode (CommandStore.headerRecord cfg)
      = { CommandStore.blankHeader cfg with
          crc16 := CommandStore.headerCrc (CommandStore.blankHeader cfg) } :=
    StoredHeader.codec.decode_encode _
  refine ⟨by rw [hdec]; rfl, ?_, by rw [hdec]; rfl, by rw [hdec]; rfl, hpos, ?_⟩
  · rw [hdec, CommandStore.headerRecord, headerRecord_take]
    rfl
  · rw [hdec]
    show (UInt16.ofNat (indexBytesFor cfg.maxCommands)).toNat = _
    rw [UInt16.toNat_ofNat', Nat.mod_eq_of_lt (indexBytesFor_lt _)]

/-! ## The index -/

namespace CommandStore

variable (s : CommandStore)

@[simp] theorem length_storedSlots : s.storedSlots.length = s.config.maxCommands.toNat := by
  rw [storedSlots, List.length_map, List.length_range]

theorem length_indexBody : s.indexBody.length = indexBytesFor s.config.maxCommands - crcBytes := by
  rw [indexBody, List.length_append, length_encode, length_encodeAll, length_storedSlots,
    indexBytesFor, Nat.add_sub_cancel]

theorem length_indexRecord : s.indexRecord.length = indexBytesFor s.config.maxCommands := by
  have hle : crcBytes ≤ indexBytesFor s.config.maxCommands := Nat.le_add_left _ _
  have hcrc : (le16.encode (crc16Ccitt s.indexBody)).length = crcBytes := le16.length_encode _
  rw [indexRecord, List.length_append, length_indexBody, hcrc, Nat.sub_add_cancel hle]

theorem indexIntact_indexRecord : indexIntact s.indexRecord = true := by
  have hlen : s.indexBody.length = s.indexRecord.length - crcBytes := by
    rw [length_indexBody, length_indexRecord]
  rw [indexIntact, beq_iff_eq]
  conv_lhs => rw [indexRecord, List.take_left' (by rw [← indexRecord]; exact hlen)]
  conv_rhs => rw [indexRecord, List.drop_left' (by rw [← indexRecord]; exact hlen)]
  rw [decode_encode]

theorem storedMetaOf_indexRecord : storedMetaOf s.indexRecord = s.storedMeta := by
  have hlen : (StoredMeta.codec.encode s.storedMeta).length = StoredMeta.codec.width :=
    length_encode _ _
  rw [storedMetaOf, indexRecord, indexBody, slice, List.drop_zero, List.append_assoc,
    List.take_left' hlen, decode_encode]

/-- Slot `i` of the index is what `write_index_` stored for slot `i`. -/
theorem storedSlotAt_indexRecord {i : Nat} (hi : i < s.config.maxCommands.toNat) :
    storedSlotAt s.indexRecord i = StoredSlot.ofCommand (s.slot i) := by
  have hlen : (StoredMeta.codec.encode s.storedMeta).length = StoredMeta.codec.width :=
    length_encode _ _
  have hi' : i < s.storedSlots.length := by rw [length_storedSlots]; exact hi
  have hslice := StoredSlot.codec.slice_encodeAll s.storedSlots
    (le16.encode (crc16Ccitt s.indexBody)) hi'
  rw [slice] at hslice
  rw [storedSlotAt, indexRecord, slice]
  conv_lhs => rw [indexBody]
  rw [List.append_assoc, ← hlen, List.drop_length_add_append]
  conv_lhs => rw [← indexBody, hslice]
  rw [decode_encode]
  simp only [storedSlots, List.getElem_map, List.getElem_range]

end CommandStore

/-! ## One slot -/

/-- A command whose record can be read back: its name survives `strncpy`, and its pulse count is
    positive and fits its field. -/
structure Storable (c : Command) : Prop where
  name_pos : 0 < c.name.length
  name_le : c.name.length ≤ nameMaxChars
  name_nul : ∀ b ∈ c.name, b ≠ 0
  timings_pos : 0 < c.timings.length
  timings_lt : c.timings.length < 2 ^ 16

theorem nameCharAllowed_ne_zero {b : UInt8} (h : nameCharAllowed b = true) : b ≠ 0 := by
  rintro rfl
  exact absurd h (by decide)

/-- What `validate_name` accepts. -/
theorem validateName_eq_ok {name : Bytes} :
    validateName name = .ok ↔
      0 < name.length ∧ name.length ≤ nameMaxChars ∧ name.all nameCharAllowed = true := by
  have hempty : name.isEmpty = true ↔ name.length = 0 := by
    rw [List.isEmpty_iff, List.length_eq_zero_iff]
  rw [validateName]
  by_cases h0 : name.length = 0
  · rw [if_pos (hempty.mpr h0)]
    exact ⟨fun h => (nomatch h), fun h => absurd h0 (by omega)⟩
  · rw [if_neg fun h => h0 (hempty.mp h)]
    by_cases hlen : name.length > nameMaxChars
    · rw [if_pos hlen]
      exact ⟨fun h => (nomatch h), fun h => absurd h.2.1 (by omega)⟩
    · rw [if_neg hlen]
      by_cases hall : name.all nameCharAllowed = true
      · rw [if_pos hall]
        exact ⟨fun _ => ⟨by omega, by omega, hall⟩, fun _ => rfl⟩
      · rw [if_neg hall]
        exact ⟨fun h => (nomatch h), fun h => absurd h.2.2 hall⟩

/-- A valid name is ASCII. -/
theorem lt_of_validateName {name : Bytes} (h : validateName name = .ok) :
    ∀ byte ∈ name, byte < 128 := by
  intro byte hbyte
  have hallowed := List.all_eq_true.mp (validateName_eq_ok.mp h).2.2 byte hbyte
  have hall : ∀ i : Fin 256, nameCharAllowed (UInt8.ofFin i) = true → UInt8.ofFin i < 128 := by
    decide +kernel
  exact hall byte.toFin hallowed

/-- A validated name and a waveform of an admissible length are storable. -/
theorem Storable.of_valid {c : Command} (hname : validateName c.name = .ok)
    (hpos : 0 < c.timings.length) (hlt : c.timings.length < 2 ^ 16) : Storable c := by
  obtain ⟨hn, hle, hall⟩ := validateName_eq_ok.mp hname
  refine ⟨hn, hle, ?_, hpos, hlt⟩
  intro b hb
  exact nameCharAllowed_ne_zero (List.all_eq_true.mp hall b hb)

theorem takeWhile_ne_zero {name : Bytes} (h : ∀ b ∈ name, b ≠ 0) :
    name.takeWhile (· ≠ 0) = name := by
  rw [List.takeWhile_eq_self_iff]
  intro b hb
  exact decide_eq_true (h b hb)

/-- The name field of a storable command reads back as its name. -/
theorem cName_strncpyName {name : Bytes} (hle : name.length ≤ nameMaxChars)
    (hnul : ∀ b ∈ name, b ≠ 0) :
    ((strncpyName name).1.take (nameBufLen - 1)).takeWhile (· ≠ 0) = name := by
  have hmax : nameMaxChars = 23 := rfl
  have hbuf : nameBufLen = 24 := rfl
  have hval : (strncpyName name).1 = name ++ List.replicate (24 - name.length) 0 := by
    show ((name.takeWhile (· ≠ 0)).take (nameBufLen - 1)).take nameBufLen
      ++ List.replicate (nameBufLen - ((name.takeWhile (· ≠ 0)).take (nameBufLen - 1)).length) 0 = _
    rw [takeWhile_ne_zero hnul, List.take_of_length_le (l := name) (by omega),
      List.take_of_length_le (by omega), hbuf]
  have htake : (name ++ List.replicate (24 - name.length) (0 : UInt8)).take (nameBufLen - 1)
      = name ++ List.replicate (23 - name.length) 0 := by
    rw [List.take_append, List.take_of_length_le (by omega), List.take_replicate, hbuf]
    congr 2
    omega
  rw [hval, htake, List.takeWhile_append_of_pos (fun b hb => decide_eq_true (hnul b hb))]
  cases h : 23 - name.length with
  | zero => rw [List.replicate_zero, List.takeWhile_nil, List.append_nil]
  | succ n =>
    rw [List.replicate_succ, List.takeWhile_cons_of_neg (by decide), List.append_nil]

section Slot

variable {c : Command} (hocc : c.occupied = true) (hc : Storable c)
include hocc

theorem ofCommand_pulseCount (hlt : c.timings.length < 2 ^ 16) :
    (StoredSlot.ofCommand c).pulseCount.toNat = c.timings.length := by
  rw [StoredSlot.ofCommand, if_pos hocc]
  show (UInt16.ofNat c.timings.length).toNat = _
  rw [UInt16.toNat_ofNat', Nat.mod_eq_of_lt hlt]

include hc

theorem ofCommand_cName : (StoredSlot.ofCommand c).cName = c.name := by
  rw [StoredSlot.ofCommand, if_pos hocc]
  exact cName_strncpyName hc.name_le hc.name_nul

theorem ofCommand_named : (StoredSlot.ofCommand c).named = true := by
  have hname := ofCommand_cName hocc hc
  have hpulses := ofCommand_pulseCount hocc hc.timings_lt
  have hid : (StoredSlot.ofCommand c).commandId = c.commandId := by
    rw [StoredSlot.ofCommand, if_pos hocc]
  have h1 : c.name ≠ [] := List.ne_nil_of_length_pos hc.name_pos
  have h2 : (StoredSlot.ofCommand c).pulseCount ≠ 0 := by
    intro hz
    have hpos := hc.timings_pos
    rw [hz] at hpulses
    have : (0 : UInt16).toNat = 0 := rfl
    omega
  have h3 : c.commandId ≠ commandIdNone := Command.occupied_iff.mp hocc
  simp [StoredSlot.named, hname, hid, h1, h2, h3]

/-- The slot fits a reading configuration exactly when its position and its length do. -/
theorem ofCommand_fits (cfg : Config) (i : Nat) :
    (StoredSlot.ofCommand c).fits cfg i = true ↔
      i < cfg.maxCommands.toNat ∧ c.timings.length ≤ cfg.maxPulses.toNat := by
  have hpulses := ofCommand_pulseCount hocc hc.timings_lt
  have hgt : (StoredSlot.ofCommand c).pulseCount > cfg.maxPulses ↔
      c.timings.length > cfg.maxPulses.toNat := by
    rw [← hpulses]
    exact UInt16.lt_iff_toNat_lt
  simp [StoredSlot.fits, hgt]

/-- The waveform of the slot reads back from the record `write_payload_` left for it. -/
theorem ofCommand_waveform (load : Loader) (cfg : Config) (i : Nat)
    (hload : load (cfg.payloadKey (UInt8.ofNat i)) (c.timings.length * sle32.width)
      = some (timingsBytes c.timings)) :
    (StoredSlot.ofCommand c).waveform load cfg i = some c.timings := by
  have hpulses := ofCommand_pulseCount hocc hc.timings_lt
  have hcrc : (StoredSlot.ofCommand c).payloadCrc16 = timingsCrc c.timings := by
    rw [StoredSlot.ofCommand, if_pos hocc]
  rw [StoredSlot.waveform, hpulses, hload]
  show (if timingsCrc (sle32.decodeAll c.timings.length (timingsBytes c.timings)) ≠ _ then none
    else some (sle32.decodeAll c.timings.length (timingsBytes c.timings))) = _
  rw [timingsBytes, decodeAll_encodeAll, hcrc, if_neg (not_not_intro rfl)]

theorem ofCommand_toCommand : (StoredSlot.ofCommand c).toCommand c.timings = c := by
  have hname := ofCommand_cName hocc hc
  rw [StoredSlot.toCommand, hname, StoredSlot.ofCommand, if_pos hocc]

end Slot

theorem ofCommand_free {c : Command} (hfree : c.occupied = false) :
    (StoredSlot.ofCommand c).named = false := by
  rw [StoredSlot.ofCommand, if_neg (by rw [hfree]; exact Bool.false_ne_true)]
  rfl

/-! ## A whole registry -/

namespace CommandStore

/-- What the registry consists of: the metadata and the slots, without the session's mode. -/
structure Registry where
  bridgeId : BridgeId
  nextCommandId : UInt32
  revision : UInt32
  restoreIncomplete : Bool
  slots : List Command
  deriving DecidableEq, Repr

/-- The registry a store holds in RAM. -/
def registry (s : CommandStore) : Registry where
  bridgeId := s.bridgeId
  nextCommandId := s.nextCommandId
  revision := s.revision
  restoreIncomplete := s.restoreState != 0
  slots := s.slots

/-- The commands a store holds, in slot order. -/
def commands (s : CommandStore) : List Command := SlotTable.content s.slots

/-- The records written for `s`: a header that states its slot count, its index, and the payload
    of every occupied slot. -/
structure Image (r : Records UInt32) (s : CommandStore) : Prop where
  header : ∃ h, r.load s.config.headerKey StoredHeader.codec.width = some h ∧
    HeaderStates h s.config.maxCommands
  index : r s.config.indexKey = some s.indexRecord
  payloads : ∀ i < s.config.maxCommands.toNat, (s.slot i).occupied = true →
    r (s.config.payloadKey (UInt8.ofNat i)) = some (timingsBytes (s.slot i).timings)

/-- A slot of `s` as a store of configuration `cfg` sees it. -/
def fitsSlot (s : CommandStore) (cfg : Config) (i : Nat) : Bool :=
  decide (i < cfg.maxCommands.toNat) && decide ((s.slot i).timings.length ≤ cfg.maxPulses.toNat)

variable {r : Records UInt32} {s : CommandStore} {cfg : Config}

/-- **The codec law for one slot.** -/
theorem Image.outcome (him : Image r s) (hst : ∀ i, (s.slot i).occupied = true → Storable (s.slot i))
    (hsalt : cfg.keySalt = s.config.keySalt) {i : Nat} (hi : i < s.config.maxCommands.toNat) :
    outcomeAt r.load s.indexRecord cfg i =
      if (s.slot i).occupied then
        if s.fitsSlot cfg i then .loaded (s.slot i) else .unfittable
      else .free := by
  rw [outcomeAt, storedSlotAt_indexRecord s hi, slotOutcome]
  by_cases hocc : (s.slot i).occupied = true
  · have hc := hst i hocc
    have hfits : (StoredSlot.ofCommand (s.slot i)).fits cfg i = s.fitsSlot cfg i := by
      rw [Bool.eq_iff_iff, ofCommand_fits hocc hc, fitsSlot, Bool.and_eq_true, decide_eq_true_eq,
        decide_eq_true_eq]
    have hkey : cfg.payloadKey (UInt8.ofNat i) = s.config.payloadKey (UInt8.ofNat i) := by
      rw [Config.payloadKey, Config.payloadKey, hsalt]
    have hload : r.load (cfg.payloadKey (UInt8.ofNat i)) ((s.slot i).timings.length * sle32.width)
        = some (timingsBytes (s.slot i).timings) := by
      rw [hkey]
      exact Records.load_eq_some.mpr ⟨him.payloads i hi hocc, length_timingsBytes _⟩
    rw [ofCommand_named hocc hc, hfits, if_pos hocc,
      ofCommand_waveform hocc hc r.load cfg i hload]
    simp only [ofCommand_toCommand hocc hc]
    cases s.fitsSlot cfg i <;> rfl
  · have hfree : (s.slot i).occupied = false := Bool.eq_false_iff.mpr hocc
    rw [ofCommand_free hfree, if_neg hocc]
    rfl

theorem Image.readable (him : Image r s)
    (hst : ∀ i, (s.slot i).occupied = true → Storable (s.slot i))
    (hsalt : cfg.keySalt = s.config.keySalt) :
    Readable r.load cfg s.config.maxCommands s.indexRecord where
  header := by
    rw [Config.headerKey, hsalt]
    exact him.header
  index := by
    rw [Config.indexKey, hsalt]
    exact Records.load_eq_some.mpr ⟨him.index, length_indexRecord s⟩
  intact := indexIntact_indexRecord s
  payloads := by
    intro i hi
    rw [him.outcome hst hsalt hi]
    split
    · split <;> rfl
    · rfl

variable (cfg) in
/-- Slot `i` of the registry a reader of configuration `cfg` loads. -/
theorem Image.slot_decoded (him : Image r s)
    (hst : ∀ i, (s.slot i).occupied = true → Storable (s.slot i))
    (hsalt : cfg.keySalt = s.config.keySalt) (hsize : s.slots.length = s.config.maxCommands.toNat)
    (i : Nat) : (decoded r.load cfg s.config.maxCommands s.indexRecord).slot i =
      if (s.slot i).occupied && s.fitsSlot cfg i then s.slot i else {} := by
  show (readSlots r.load s.indexRecord cfg s.config.maxCommands.toNat).getD i {} = _
  rw [getD_readSlots]
  by_cases hi : i < s.config.maxCommands.toNat
  · by_cases hcfg : i < cfg.maxCommands.toNat
    · rw [if_pos ⟨hcfg, hi⟩, him.outcome hst hsalt hi]
      cases (s.slot i).occupied <;> cases s.fitsSlot cfg i <;> rfl
    · have hno : s.fitsSlot cfg i = false := by rw [fitsSlot, decide_eq_false hcfg, Bool.false_and]
      rw [if_neg fun h => hcfg h.1, hno, Bool.and_false]
      rfl
  · rw [if_neg fun h => hi h.2, slot_of_le (by omega)]
    rfl

/-- **A store whose image is on flash reboots into itself**, under its own configuration. -/
theorem Image.decoded_eq (him : Image r s)
    (hst : ∀ i, (s.slot i).occupied = true → Storable (s.slot i))
    (hsize : s.slots.length = s.config.maxCommands.toNat)
    (hpulses : ∀ i, (s.slot i).occupied = true → (s.slot i).timings.length ≤ s.config.maxPulses.toNat)
    (hfree : ∀ i, (s.slot i).occupied = false → s.slot i = {}) :
    (decoded r.load s.config s.config.maxCommands s.indexRecord).registry = s.registry := by
  have hslots : (decoded r.load s.config s.config.maxCommands s.indexRecord).slots = s.slots := by
    apply List.ext_getElem
    · rw [hsize]
      exact length_readSlots ..
    · intro i hi hi'
      have hslot := him.slot_decoded s.config hst rfl hsize i
      rw [slot_eq_getElem hi] at hslot
      rw [hslot, ← slot_eq_getElem hi']
      cases hocc : (s.slot i).occupied with
      | true =>
        have hfit : s.fitsSlot s.config i = true := by
          rw [fitsSlot, Bool.and_eq_true, decide_eq_true_eq, decide_eq_true_eq]
          exact ⟨by omega, hpulses i hocc⟩
        rw [hfit]
        rfl
      | false =>
        rw [hfree i hocc]
        rfl
  have hmeta : storedMetaOf s.indexRecord = s.storedMeta := storedMetaOf_indexRecord s
  show (⟨(storedMetaOf s.indexRecord).bridgeId, (storedMetaOf s.indexRecord).nextCommandId,
    (storedMetaOf s.indexRecord).revision, (storedMetaOf s.indexRecord).restoreState != 0,
    _⟩ : Registry) = _
  rw [hmeta, hslots]
  rfl

end CommandStore

end RfCloner
