/-
  Reading the registry back: `CommandStore::begin` and `load_index_`.

  The header is read first and states the length of the index; the index is read next and names
  the payload of every occupied slot.  Only a device with no header record at all is written to.
  `slotOutcome` is what the loop of `load_index_` decides about one slot, and `slots_loadSlots`
  and its companions say what the whole loop leaves behind in terms of those decisions.
-/
import RfCloner.Store.Operations

namespace RfCloner

open FixedCodec

/-- `store->load(key, buffer, len)` at one moment. -/
abbrev Loader := UInt32 → Nat → Option Bytes

/-! ## One slot -/

/-- `slot.name` as a C string, once its last byte has been set to NUL. -/
def StoredSlot.cName (slot : StoredSlot) : Bytes :=
  (slot.name.1.take (nameBufLen - 1)).takeWhile (· ≠ 0)

/-- What `load_index_` makes of one stored slot. -/
inductive SlotOutcome where
  | free
  | unfittable
  | faulty (name : Bytes)
  | loaded (command : Command)
  deriving DecidableEq, Repr

/-- The command a readable slot describes. -/
def StoredSlot.toCommand (slot : StoredSlot) (timings : List Int32) : Command where
  commandId := slot.commandId
  name := slot.cName
  timings := timings
  gapUs := slot.gapUs
  repeatTimes := slot.repeatTimes
  frequencyHz := slot.frequencyHz
  modulation := slot.modulation

/-- A stored slot that names a command. -/
def StoredSlot.named (slot : StoredSlot) : Bool :=
  !(slot.commandId == commandIdNone || slot.cName.isEmpty || slot.pulseCount == 0)

/-- Whether slot `i` is within the configured limits. -/
def StoredSlot.fits (slot : StoredSlot) (cfg : Config) (i : Nat) : Bool :=
  !(decide (i ≥ cfg.maxCommands.toNat) || decide (slot.pulseCount > cfg.maxPulses))

/-- The waveform of slot `i`, if its record loads and passes its CRC. -/
def StoredSlot.waveform (slot : StoredSlot) (load : Loader) (cfg : Config) (i : Nat) :
    Option (List Int32) :=
  match load (cfg.payloadKey (UInt8.ofNat i)) (slot.pulseCount.toNat * sle32.width) with
  | none => none
  | some record =>
    if timingsCrc (sle32.decodeAll slot.pulseCount.toNat record) ≠ slot.payloadCrc16 then none
    else some (sle32.decodeAll slot.pulseCount.toNat record)

/-- The body of the slot loop, up to its effects. -/
def slotOutcome (load : Loader) (cfg : Config) (i : Nat) (slot : StoredSlot) : SlotOutcome :=
  if !slot.named then .free
  else if !slot.fits cfg i then .unfittable
  else
    match slot.waveform load cfg i with
    | none => .faulty slot.cName
    | some timings => .loaded (slot.toCommand timings)

/-- The stored slot `i` of an index record. -/
def storedSlotAt (raw : Bytes) (i : Nat) : StoredSlot :=
  StoredSlot.codec.decode
    (slice (StoredMeta.codec.width + i * StoredSlot.codec.width) StoredSlot.codec.width raw)

/-! ## The registry -/

namespace CommandStore

/-- `enter_read_only_`. -/
def enterReadOnly (s : CommandStore) (report : LoadReport) (fault : StoreFault) :
    LoadReport × CommandStore :=
  ({ report with readOnly := true, fault := fault }, { s with readOnly := true, fault := fault })

/-- The store of a session that loaded nothing. -/
def unloaded (cfg : Config) (fault : StoreFault) : CommandStore :=
  { configure cfg with readOnly := true, fault := fault }

/-- One iteration of the slot loop. -/
def loadSlot (load : Loader) (raw : Bytes) (acc : LoadReport × CommandStore) (i : Nat) :
    LoadReport × CommandStore :=
  let (report, s) := acc
  match slotOutcome load s.config i (storedSlotAt raw i) with
  | .free => (report, s)
  | .unfittable => ({ report with droppedUnfittable := report.droppedUnfittable + 1 }, s)
  | .faulty name =>
    let report :=
      if report.payloadFaults = 0 then
        { report with faultSlot := UInt8.ofNat i, faultName := name }
      else report
    ({ report with payloadFaults := report.payloadFaults + 1 }, s)
  | .loaded command =>
    ({ report with loaded := report.loaded + 1 }, { s with slots := s.slots.set i command })

/-- The slot loop over the first `n` stored slots. -/
def loadSlots (load : Loader) (raw : Bytes) (n : Nat) (acc : LoadReport × CommandStore) :
    LoadReport × CommandStore :=
  (List.range n).foldl (loadSlot load raw) acc

/-- The metadata of an index record, copied into the store. -/
def adoptMeta (s : CommandStore) (m : StoredMeta) : CommandStore :=
  { s with
    bridgeId := m.bridgeId
    nextCommandId := m.nextCommandId
    revision := m.revision
    restoreState := m.restoreState }

/-- Whether an index record passes its CRC. -/
def indexIntact (raw : Bytes) : Bool :=
  crc16Ccitt (raw.take (raw.length - crcBytes)) == le16.decode (raw.drop (raw.length - crcBytes))

/-- The metadata at the head of an index record. -/
def storedMetaOf (raw : Bytes) : StoredMeta :=
  StoredMeta.codec.decode (slice 0 StoredMeta.codec.width raw)

/-- `load_index_`. -/
def loadIndex (load : Loader) (s : CommandStore) (storedSlotCount : UInt8)
    (storedIndexBytes : UInt16) (report : LoadReport) : LoadReport × CommandStore :=
  if storedIndexBytes.toNat ≠ indexBytesFor storedSlotCount then
    s.enterReadOnly { report with headerInvalid := true } .headerInvalid
  else
    match load s.config.indexKey (indexBytesFor storedSlotCount) with
    | none => s.enterReadOnly report .indexInvalid
    | some raw =>
      if !indexIntact raw then s.enterReadOnly report .indexInvalid
      else
        let m := storedMetaOf raw
        -- the slots of the writer are read, however many this configuration has
        let (report, s) :=
          loadSlots load raw storedSlotCount.toNat
            ({ report with
                restoreIncomplete := m.restoreState != 0
                slotCountChanged := storedSlotCount != s.config.maxCommands },
              s.adoptMeta m)
        -- what did read cleanly stays in RAM, so that it can be sent and exported
        if report.payloadFaults > 0 then s.enterReadOnly report .payloadInvalid
        else (report, s)

/-- `begin`, once a header record has been read. -/
def readHeader (load : Loader) (s : CommandStore) (raw : Bytes) : LoadReport × CommandStore :=
  let header := StoredHeader.codec.decode raw
  let report : LoadReport :=
    { hadStoredData := true
      storedFormatVersion := header.formatVersion
      storedSlotCount := header.slotCount }
  let expectedCrc := crc16Ccitt (raw.take (StoredHeader.codec.width - crcBytes))
  if header.magic ≠ storeMagic ∨ header.crc16 ≠ expectedCrc ∨ header.slotCount = 0 then
    s.enterReadOnly { report with headerInvalid := true } .headerInvalid
  else if header.formatVersion ≠ storeFormatVersion then
    s.enterReadOnly { report with versionMismatch := true } .versionUnsupported
  else s.loadIndex load header.slotCount header.indexBytes report

variable {σ : Type} (B : StorageBackend UInt32 σ)

/-- `begin`.  `random` is what `store_random_bytes` delivers should an identity be minted. -/
def begin (random : Option BridgeId) (s : CommandStore) (io : σ) :
    LoadReport × CommandStore × σ :=
  let report : LoadReport := {}
  let s := { s with readOnly := false, fault := .none }
  if !s.backend then
    let (report, s) := s.enterReadOnly { report with headerInvalid := true } .headerInvalid
    (report, s, io)
  else
    match B.load s.config.headerKey StoredHeader.codec.width io with
    | none =>
      -- a fresh device; a failure of the write or of the sync is not looked at
      let s := s.mintIdentity random
      (report, s, (B.sync (s.writeIndex B io).2).2)
    | some raw =>
      let (report, s) := s.readHeader (fun key len => B.load key len io) raw
      (report, s, io)

/-- `begin` on a fresh store of configuration `cfg`: what a reboot does. -/
def boot (cfg : Config) (random : Option BridgeId) (io : σ) : LoadReport × CommandStore × σ :=
  begin B random (configure cfg) io

end CommandStore

/-! ## What the slot loop leaves behind -/

/-- The command a slot outcome puts into its slot: a default one unless it loaded. -/
def SlotOutcome.command : SlotOutcome → Command
  | .loaded command => command
  | _ => {}

/-- The number of the first `n` slots with a given outcome. -/
def countOutcome (p : SlotOutcome → Bool) (outcome : Nat → SlotOutcome) (n : Nat) : Nat :=
  (List.range n).countP fun i => p (outcome i)

theorem countOutcome_succ (p : SlotOutcome → Bool) (outcome : Nat → SlotOutcome) (n : Nat) :
    countOutcome p outcome (n + 1) = countOutcome p outcome n + if p (outcome n) then 1 else 0 := by
  rw [countOutcome, List.range_succ, List.countP_append, List.countP_singleton]
  rfl

theorem countOutcome_le (p : SlotOutcome → Bool) (outcome : Nat → SlotOutcome) (n : Nat) :
    countOutcome p outcome n ≤ n := by
  have h := List.countP_le_length (p := fun i => p (outcome i)) (l := List.range n)
  rwa [List.length_range] at h

namespace SlotOutcome

/-- The slot no longer fits the configuration. -/
def isUnfittable : SlotOutcome → Bool
  | .unfittable => true
  | _ => false

/-- The slot's waveform is unreadable. -/
def isFaulty : SlotOutcome → Bool
  | .faulty _ => true
  | _ => false

end SlotOutcome

namespace CommandStore

variable (load : Loader) (raw : Bytes) (cfg : Config)

/-- The outcome of each stored slot under configuration `cfg`. -/
def outcomeAt (i : Nat) : SlotOutcome := slotOutcome load cfg i (storedSlotAt raw i)

/-- A slot loads when it is named, fits, and its waveform can be read. -/
theorem outcomeAt_eq_loaded {load : Loader} {raw : Bytes} {cfg : Config} {i : Nat} {c : Command} :
    outcomeAt load raw cfg i = .loaded c ↔
      (storedSlotAt raw i).named = true ∧ (storedSlotAt raw i).fits cfg i = true ∧
        ∃ timings, (storedSlotAt raw i).waveform load cfg i = some timings ∧
          c = (storedSlotAt raw i).toCommand timings := by
  unfold outcomeAt slotOutcome
  cases (storedSlotAt raw i).named
  · simp
  · cases (storedSlotAt raw i).fits cfg i
    · simp
    · cases (storedSlotAt raw i).waveform load cfg i
      · simp
      · simp [eq_comm]

/-- The slots after the first `n` stored slots have been read into an empty store. -/
def readSlots (n : Nat) : List Command :=
  (List.range cfg.maxCommands.toNat).map fun i =>
    if i < n then (outcomeAt load raw cfg i).command else {}

theorem readSlots_zero :
    readSlots load raw cfg 0 = List.replicate cfg.maxCommands.toNat {} := by
  rw [readSlots, List.eq_replicate_iff]
  refine ⟨by rw [List.length_map, List.length_range], ?_⟩
  intro c hc
  obtain ⟨i, -, rfl⟩ := List.mem_map.mp hc
  exact if_neg (Nat.not_lt_zero i)

@[simp] theorem length_readSlots (n : Nat) :
    (readSlots load raw cfg n).length = cfg.maxCommands.toNat := by
  rw [readSlots, List.length_map, List.length_range]

theorem getD_readSlots (n i : Nat) : (readSlots load raw cfg n).getD i {} =
    if i < cfg.maxCommands.toNat ∧ i < n then (outcomeAt load raw cfg i).command else {} := by
  rw [List.getD_eq_getElem?_getD, readSlots, List.getElem?_map]
  by_cases hi : i < cfg.maxCommands.toNat
  · rw [List.getElem?_range hi]
    by_cases hn : i < n
    · simp [hi, hn]
    · simp [hn]
  · rw [List.getElem?_eq_none (by rw [List.length_range]; omega)]
    simp [hi]

/-- Reading one more slot sets exactly that slot, if it loads. -/
theorem readSlots_succ (n : Nat) :
    readSlots load raw cfg (n + 1) =
      (readSlots load raw cfg n).set n (outcomeAt load raw cfg n).command := by
  apply List.ext_getElem
  · rw [List.length_set, length_readSlots, length_readSlots]
  · intro i hi hi'
    simp only [List.getElem_set, readSlots, List.getElem_map, List.getElem_range]
    by_cases hin : n = i
    · subst hin
      rw [if_pos (Nat.lt_succ_self n), if_pos rfl]
    · rw [if_neg hin]
      by_cases hlt : i < n
      · rw [if_pos (Nat.lt_succ_of_lt hlt), if_pos hlt]
      · rw [if_neg (by omega), if_neg hlt]

/-- A slot that does not load keeps its default. -/
theorem readSlots_set_default (n : Nat) :
    (readSlots load raw cfg n).set n {} = readSlots load raw cfg n := by
  apply List.ext_getElem
  · rw [List.length_set]
  · intro i hi hi'
    rw [List.getElem_set]
    split
    · rename_i hin
      subst hin
      simp only [readSlots, List.getElem_map, List.getElem_range, Nat.lt_irrefl, if_false]
    · rfl

theorem loadSlots_succ (raw : Bytes) (n : Nat) (acc : LoadReport × CommandStore) :
    loadSlots load raw (n + 1) acc = loadSlot load raw (loadSlots load raw n acc) n := by
  rw [loadSlots, List.range_succ, List.foldl_append]
  rfl

/-- **The slot loop**: it sets the slots that load, counts the others, and touches nothing else.
    Induction on the number of slots read; `step` is one iteration. -/
theorem loadSlots_spec (report : LoadReport) (s : CommandStore) (hcfg : s.config = cfg)
    (hslots : s.slots = List.replicate cfg.maxCommands.toNat {}) (n : Nat) :
    (loadSlots load raw n (report, s)).2 = { s with slots := readSlots load raw cfg n } ∧
    (loadSlots load raw n (report, s)).1.readOnly = report.readOnly ∧
    (loadSlots load raw n (report, s)).1.droppedUnfittable = report.droppedUnfittable
      + UInt8.ofNat (countOutcome SlotOutcome.isUnfittable (outcomeAt load raw cfg) n) ∧
    (loadSlots load raw n (report, s)).1.payloadFaults = report.payloadFaults
      + UInt8.ofNat (countOutcome SlotOutcome.isFaulty (outcomeAt load raw cfg) n) := by
  induction n with
  | zero =>
    refine ⟨?_, rfl, ?_, ?_⟩
    · rw [readSlots_zero, ← hslots]
      rfl
    · simp [loadSlots, countOutcome]
    · simp [loadSlots, countOutcome]
  | succ n ih =>
    obtain ⟨hstore, hro, hdropped, hfaults⟩ := ih
    rw [loadSlots_succ]
    generalize loadSlots load raw n (report, s) = acc at hstore hro hdropped hfaults ⊢
    obtain ⟨report', s'⟩ := acc
    dsimp only at hstore hro hdropped hfaults
    have hout : slotOutcome load s'.config n (storedSlotAt raw n) = outcomeAt load raw cfg n := by
      rw [hstore, outcomeAt, ← hcfg]
    rw [readSlots_succ, countOutcome_succ, countOutcome_succ]
    unfold loadSlot
    -- one iteration, by what it decides about slot `n`
    cases hcase : outcomeAt load raw cfg n with
    | free =>
      rw [hcase] at hout
      simp only [hout, SlotOutcome.command, SlotOutcome.isUnfittable,
        SlotOutcome.isFaulty, readSlots_set_default, Bool.false_eq_true, if_false, Nat.add_zero]
      exact ⟨hstore, hro, hdropped, hfaults⟩
    | unfittable =>
      rw [hcase] at hout
      simp only [hout, SlotOutcome.command, SlotOutcome.isUnfittable,
        SlotOutcome.isFaulty, readSlots_set_default, Bool.false_eq_true, if_false, if_true,
        Nat.add_zero]
      refine ⟨hstore, hro, ?_, hfaults⟩
      rw [hdropped, UInt8.ofNat_add, UInt8.add_assoc]
      rfl
    | faulty name =>
      rw [hcase] at hout
      simp only [hout, SlotOutcome.command, SlotOutcome.isUnfittable,
        SlotOutcome.isFaulty, readSlots_set_default, Bool.false_eq_true, if_false, if_true,
        Nat.add_zero]
      refine ⟨hstore, ?_, ?_, ?_⟩
      · split <;> exact hro
      · split <;> exact hdropped
      · rw [UInt8.ofNat_add, ← UInt8.add_assoc, ← hfaults]
        split <;> rfl
    | loaded command =>
      rw [hcase] at hout
      simp only [hout, SlotOutcome.command, SlotOutcome.isUnfittable,
        SlotOutcome.isFaulty, Bool.false_eq_true, if_false, Nat.add_zero]
      exact ⟨by rw [hstore], hro, hdropped, hfaults⟩

/-! ## Readable flash -/

/-- A header record this firmware accepts, stating `m` slots. -/
structure HeaderStates (raw : Bytes) (m : UInt8) : Prop where
  magic : (StoredHeader.codec.decode raw).magic = storeMagic
  crc : (StoredHeader.codec.decode raw).crc16
    = crc16Ccitt (raw.take (StoredHeader.codec.width - crcBytes))
  version : (StoredHeader.codec.decode raw).formatVersion = storeFormatVersion
  slotCount : (StoredHeader.codec.decode raw).slotCount = m
  pos : m ≠ 0
  indexBytes : (StoredHeader.codec.decode raw).indexBytes.toNat = indexBytesFor m

/-- Flash that `begin` accepts: header, index and every payload the index names are intact. -/
structure Readable (load : Loader) (cfg : Config) (m : UInt8) (raw : Bytes) : Prop where
  header : ∃ h, load cfg.headerKey StoredHeader.codec.width = some h ∧ HeaderStates h m
  index : load cfg.indexKey (indexBytesFor m) = some raw
  intact : indexIntact raw = true
  payloads : ∀ i < m.toNat, (outcomeAt load raw cfg i).isFaulty = false

/-- What `begin` makes of readable flash. -/
def decoded (load : Loader) (cfg : Config) (m : UInt8) (raw : Bytes) : CommandStore :=
  { (configure cfg).adoptMeta (storedMetaOf raw) with slots := readSlots load raw cfg m.toNat }

theorem countFaulty_eq_zero_iff {m : UInt8} :
    countOutcome SlotOutcome.isFaulty (outcomeAt load raw cfg) m.toNat = 0 ↔
      ∀ i < m.toNat, (outcomeAt load raw cfg i).isFaulty = false := by
  rw [countOutcome, List.countP_eq_zero]
  constructor
  · intro h i hi
    exact Bool.eq_false_iff.mpr (h i (List.mem_range.mpr hi))
  · intro h i hi
    rw [h i (List.mem_range.mp hi)]
    exact Bool.false_ne_true

/-- `load_index_` on an intact index: the slots decide whether the session is read-only. -/
theorem loadIndex_intact {s : CommandStore} {m : UInt8} {len : UInt16} (report : LoadReport)
    (hcfg : s.config = cfg) (hslots : s.slots = List.replicate cfg.maxCommands.toNat {})
    (hfaults : report.payloadFaults = 0) (hlen : len.toNat = indexBytesFor m)
    (hraw : load cfg.indexKey (indexBytesFor m) = some raw) (hintact : indexIntact raw = true) :
    let faults := countOutcome SlotOutcome.isFaulty (outcomeAt load raw cfg) m.toNat
    let out := s.loadIndex load m len report
    out.1.droppedUnfittable = report.droppedUnfittable
      + UInt8.ofNat (countOutcome SlotOutcome.isUnfittable (outcomeAt load raw cfg) m.toNat) ∧
    (faults = 0 → out.1.readOnly = report.readOnly ∧
      out.2 = { s.adoptMeta (storedMetaOf raw) with slots := readSlots load raw cfg m.toNat }) ∧
    (faults ≠ 0 → out.1.readOnly = true ∧
      out.2 = { s.adoptMeta (storedMetaOf raw) with
        slots := readSlots load raw cfg m.toNat, readOnly := true, fault := .payloadInvalid }) := by
  intro faults out
  obtain ⟨hstore, hro, hdropped, hfault⟩ := loadSlots_spec load raw cfg
    { report with
      restoreIncomplete := (storedMetaOf raw).restoreState != 0
      slotCountChanged := m != s.config.maxCommands }
    (s.adoptMeta (storedMetaOf raw)) hcfg hslots m.toNat
  have hout : out = s.loadIndex load m len report := rfl
  rw [loadIndex, if_neg (not_not_intro hlen), hcfg, hraw] at hout
  simp only [hintact, Bool.not_true, Bool.false_eq_true, if_false] at hout
  rw [hcfg] at hstore hro hdropped hfault
  generalize loadSlots load raw m.toNat _ = acc at hstore hro hdropped hfault hout
  obtain ⟨report', s'⟩ := acc
  dsimp only at hstore hro hdropped hfault hout
  have hle : faults ≤ m.toNat := countOutcome_le _ _ _
  have hm : m.toNat < 256 := m.toNat_lt
  -- the count of faults is a byte, but there are fewer slots than that
  have hzero : report'.payloadFaults = 0 ↔ faults = 0 := by
    rw [hfault, hfaults, UInt8.zero_add, ← UInt8.toNat_inj, UInt8.toNat_ofNat']
    rw [Nat.mod_eq_of_lt (show faults < 2 ^ 8 by omega)]
    rfl
  by_cases hz : faults = 0
  · have hnot : ¬ report'.payloadFaults > 0 := by
      rw [hzero.mpr hz]
      exact UInt8.lt_irrefl 0
    rw [if_neg hnot] at hout
    rw [hout]
    exact ⟨hdropped, fun _ => ⟨hro, hstore⟩, fun hne => absurd hz hne⟩
  · have hpos : report'.payloadFaults > 0 := UInt8.pos_iff_ne_zero.mpr fun h => hz (hzero.mp h)
    rw [if_pos hpos] at hout
    rw [hout]
    exact ⟨hdropped, fun h => absurd h hz, fun _ => ⟨rfl, by rw [enterReadOnly, hstore]⟩⟩

/-- An index that does not load intact makes the session read-only. -/
theorem loadIndex_unreadable {s : CommandStore} {m : UInt8} {len : UInt16} {report : LoadReport}
    (hbad : len.toNat = indexBytesFor m →
      ∀ raw, load s.config.indexKey (indexBytesFor m) = some raw → indexIntact raw = false) :
    (s.loadIndex load m len report).2.readOnly = true := by
  rw [loadIndex]
  split
  · rfl
  · rename_i hlen
    split
    · rfl
    · rename_i raw hraw
      rw [hbad (not_not.mp hlen) raw hraw]
      rfl

theorem readHeader_of_states {s : CommandStore} {h : Bytes} {m : UInt8} (hs : HeaderStates h m) :
    s.readHeader load h = s.loadIndex load m (StoredHeader.codec.decode h).indexBytes
      { hadStoredData := true
        storedFormatVersion := (StoredHeader.codec.decode h).formatVersion
        storedSlotCount := m } := by
  have hpass : ¬ ((StoredHeader.codec.decode h).magic ≠ storeMagic
      ∨ (StoredHeader.codec.decode h).crc16
        ≠ crc16Ccitt (h.take (StoredHeader.codec.width - crcBytes))
      ∨ (StoredHeader.codec.decode h).slotCount = 0) := by
    rw [hs.magic, ← hs.crc, hs.slotCount]
    rintro (hm | hc | hz)
    · exact hm rfl
    · exact hc rfl
    · exact hs.pos hz
  simp only [readHeader]
  rw [if_neg hpass, if_neg (not_not_intro hs.version), hs.slotCount]

/-- A header that lets the session stay writable states its slot count properly. -/
theorem readHeader_writable {s : CommandStore} {h : Bytes}
    (hw : (s.readHeader load h).2.readOnly = false) : ∃ m, HeaderStates h m := by
  simp only [readHeader] at hw
  split at hw
  · cases hw
  · rename_i hpass
    push Not at hpass
    obtain ⟨hmagic, hcrc, hpos⟩ := hpass
    split at hw
    · cases hw
    · rename_i hversion
      refine ⟨_, hmagic, hcrc, not_not.mp hversion, rfl, hpos, ?_⟩
      by_contra hlen
      rw [loadIndex_unreadable load fun h => absurd h hlen] at hw
      cases hw

/-- What `load_index_` leaves in RAM: nothing of what is on flash, or what an intact index decodes
    to, whether the session is read-only or not. -/
theorem loadIndex_cases (m : UInt8) (len : UInt16) {report : LoadReport}
    (hfaults : report.payloadFaults = 0) :
    (∃ fault, ((configure cfg).loadIndex load m len report).2
      = { configure cfg with readOnly := true, fault := fault }) ∨
    ∃ raw ro fault, len.toNat = indexBytesFor m ∧
      load cfg.indexKey (indexBytesFor m) = some raw ∧ indexIntact raw = true ∧
      ((configure cfg).loadIndex load m len report).2
        = { decoded load cfg m raw with readOnly := ro, fault := fault } := by
  by_cases hread : ∃ raw, len.toNat = indexBytesFor m ∧
      load cfg.indexKey (indexBytesFor m) = some raw ∧ indexIntact raw = true
  · right
    obtain ⟨raw, hlen, hraw, hintact⟩ := hread
    have hcfg : (configure cfg).config = cfg := rfl
    obtain ⟨-, hclean, hfaulty⟩ :=
      loadIndex_intact load raw cfg report hcfg rfl hfaults hlen hraw hintact
    by_cases hzero : countOutcome SlotOutcome.isFaulty (outcomeAt load raw cfg) m.toNat = 0
    · exact ⟨raw, false, .none, hlen, hraw, hintact, (hclean hzero).2⟩
    · exact ⟨raw, true, .payloadInvalid, hlen, hraw, hintact, (hfaulty hzero).2⟩
  · left
    rw [loadIndex]
    split
    · exact ⟨.headerInvalid, rfl⟩
    · rename_i hlen
      split
      · exact ⟨.indexInvalid, rfl⟩
      · rename_i raw hraw
        split
        · exact ⟨.indexInvalid, rfl⟩
        · rename_i hintact
          exact absurd ⟨raw, not_not.mp hlen, hraw, by simpa using hintact⟩ hread

/-- What `begin` leaves in RAM once there is a header. -/
theorem readHeader_cases (h : Bytes) :
    (∃ fault, ((configure cfg).readHeader load h).2
      = { configure cfg with readOnly := true, fault := fault }) ∨
    ∃ m raw ro fault, HeaderStates h m ∧ load cfg.indexKey (indexBytesFor m) = some raw ∧
      indexIntact raw = true ∧ ((configure cfg).readHeader load h).2
        = { decoded load cfg m raw with readOnly := ro, fault := fault } := by
  simp only [readHeader]
  split
  · exact Or.inl ⟨.headerInvalid, rfl⟩
  rename_i hpass
  push Not at hpass
  obtain ⟨hmagic, hcrc, hpos⟩ := hpass
  split
  · exact Or.inl ⟨.versionUnsupported, rfl⟩
  · rename_i hversion
    have hzero : ∀ version count : UInt8,
        LoadReport.payloadFaults
          { hadStoredData := true
            storedFormatVersion := version
            storedSlotCount := count } = 0 := fun _ _ => rfl
    rcases loadIndex_cases load cfg _ _ (hzero _ _) with
      hnone | ⟨raw, ro, fault, hlen, hraw, hintact, hout⟩
    · exact Or.inl hnone
    · exact Or.inr ⟨_, raw, ro, fault, ⟨hmagic, hcrc, not_not.mp hversion, rfl, hpos, hlen⟩, hraw,
        hintact, hout⟩

/-- Loading never touches the configuration or the backend. -/
theorem loadSlots_keeps (raw : Bytes) (n : Nat) (acc : LoadReport × CommandStore) :
    (loadSlots load raw n acc).2.config = acc.2.config ∧
      (loadSlots load raw n acc).2.backend = acc.2.backend := by
  induction n with
  | zero => exact ⟨rfl, rfl⟩
  | succ n ih =>
    rw [loadSlots_succ]
    generalize loadSlots load raw n acc = acc' at ih ⊢
    unfold loadSlot
    dsimp only
    split <;> exact ih

theorem loadIndex_keeps (s : CommandStore) (m : UInt8) (len : UInt16) (report : LoadReport) :
    (s.loadIndex load m len report).2.config = s.config ∧
      (s.loadIndex load m len report).2.backend = s.backend := by
  rw [loadIndex]
  split
  · exact ⟨rfl, rfl⟩
  split
  · exact ⟨rfl, rfl⟩
  split
  · exact ⟨rfl, rfl⟩
  · rename_i raw _ _
    have hkeep := loadSlots_keeps load raw m.toNat
      ({ report with
          restoreIncomplete := (storedMetaOf raw).restoreState != 0
          slotCountChanged := m != s.config.maxCommands }, s.adoptMeta (storedMetaOf raw))
    dsimp only
    generalize loadSlots load raw m.toNat _ = acc at hkeep ⊢
    split <;> exact hkeep

theorem readHeader_keeps (s : CommandStore) (h : Bytes) :
    (s.readHeader load h).2.config = s.config ∧ (s.readHeader load h).2.backend = s.backend := by
  simp only [readHeader]
  split
  · exact ⟨rfl, rfl⟩
  split
  · exact ⟨rfl, rfl⟩
  · exact loadIndex_keeps ..

variable {σ : Type} (B : StorageBackend UInt32 σ) (io : σ)

theorem boot_of_header (random : Option BridgeId) {h : Bytes}
    (hh : B.load cfg.headerKey StoredHeader.codec.width io = some h) :
    boot B cfg random io
      = (((configure cfg).readHeader (fun key len => B.load key len io) h).1,
          ((configure cfg).readHeader (fun key len => B.load key len io) h).2, io) := by
  show begin B random (configure cfg) io = _
  rw [begin]
  simp only [configure, Bool.not_true, Bool.false_eq_true, if_false, hh]

theorem boot_of_no_header (random : Option BridgeId)
    (hh : B.load cfg.headerKey StoredHeader.codec.width io = none) :
    boot B cfg random io = ({}, (configure cfg).mintIdentity random,
      (B.sync (((configure cfg).mintIdentity random).writeIndex B io).2).2) := by
  show begin B random (configure cfg) io = _
  rw [begin]
  simp only [configure, Bool.not_true, Bool.false_eq_true, if_false, hh]

/-- **Readable flash boots**: without a save, into the store it decodes to. -/
theorem boot_of_readable (hload : (fun key len => B.load key len io) = load)
    (random : Option BridgeId) {m : UInt8} {raw : Bytes} (hr : Readable load cfg m raw) :
    (boot B cfg random io).2 = (decoded load cfg m raw, io) ∧
    (boot B cfg random io).1.readOnly = false ∧
    (boot B cfg random io).1.droppedUnfittable = UInt8.ofNat
      (countOutcome SlotOutcome.isUnfittable (outcomeAt load raw cfg) m.toNat) := by
  subst hload
  obtain ⟨h, hh, hs⟩ := hr.header
  have hidx := loadIndex_intact (fun key len => B.load key len io) raw cfg
    (s := configure cfg) (m := m)
    { hadStoredData := true
      storedFormatVersion := (StoredHeader.codec.decode h).formatVersion
      storedSlotCount := m }
    rfl rfl rfl hs.indexBytes hr.index hr.intact
  obtain ⟨hdropped, hzero, -⟩ := hidx
  obtain ⟨hro, hstore⟩ := hzero ((countFaulty_eq_zero_iff _ raw cfg).mpr hr.payloads)
  rw [boot_of_header cfg B io random hh, readHeader_of_states _ hs]
  refine ⟨by rw [hstore]; rfl, hro, ?_⟩
  rw [hdropped, UInt8.zero_add]

/-- **A payload fault makes the session read-only**; the other slots are loaded all the same. -/
theorem boot_of_payload_fault (hload : (fun key len => B.load key len io) = load)
    (random : Option BridgeId) {m : UInt8} {h raw : Bytes}
    (hh : load cfg.headerKey StoredHeader.codec.width = some h) (hs : HeaderStates h m)
    (hraw : load cfg.indexKey (indexBytesFor m) = some raw) (hintact : indexIntact raw = true)
    (hfaulty : ∃ i < m.toNat, (outcomeAt load raw cfg i).isFaulty = true) :
    (boot B cfg random io).2
      = ({ decoded load cfg m raw with readOnly := true, fault := .payloadInvalid }, io) := by
  subst hload
  obtain ⟨-, -, hfault⟩ := loadIndex_intact (fun key len => B.load key len io) raw cfg
    (s := configure cfg) (m := m)
    { hadStoredData := true
      storedFormatVersion := (StoredHeader.codec.decode h).formatVersion
      storedSlotCount := m }
    rfl rfl rfl hs.indexBytes hraw hintact
  have hne : countOutcome SlotOutcome.isFaulty
      (outcomeAt (fun key len => B.load key len io) raw cfg) m.toNat ≠ 0 := by
    rw [Ne, countFaulty_eq_zero_iff]
    intro hnone
    obtain ⟨i, hi, hf⟩ := hfaulty
    rw [hnone i hi] at hf
    cases hf
  rw [boot_of_header cfg B io random hh, readHeader_of_states _ hs, (hfault hne).2]
  rfl

/-- A session that is not read-only was booted from readable flash, or from none. -/
theorem readable_of_boot (hload : (fun key len => B.load key len io) = load)
    {random : Option BridgeId} {h : Bytes}
    (hh : load cfg.headerKey StoredHeader.codec.width = some h)
    (hw : (boot B cfg random io).2.1.readOnly = false) :
    ∃ m raw, HeaderStates h m ∧ Readable load cfg m raw := by
  subst hload
  rw [boot_of_header cfg B io random hh] at hw
  obtain ⟨m, hs⟩ := readHeader_writable _ hw
  rw [readHeader_of_states _ hs] at hw
  have hraw : ∃ raw, B.load cfg.indexKey (indexBytesFor m) io = some raw
      ∧ indexIntact raw = true := by
    by_contra hno
    push Not at hno
    rw [loadIndex_unreadable _ fun _ raw hraw => Bool.eq_false_iff.mpr (hno raw hraw)] at hw
    cases hw
  obtain ⟨raw, hraw, hintact⟩ := hraw
  refine ⟨m, raw, hs, ⟨h, hh, hs⟩, hraw, hintact, ?_⟩
  rw [← countFaulty_eq_zero_iff]
  by_contra hne
  obtain ⟨-, -, hfaulty⟩ := loadIndex_intact (fun key len => B.load key len io) raw cfg
    (s := configure cfg) (m := m)
    { hadStoredData := true
      storedFormatVersion := (StoredHeader.codec.decode h).formatVersion
      storedSlotCount := m }
    rfl rfl rfl hs.indexBytes hraw hintact
  rw [(hfaulty hne).2] at hw
  cases hw

end CommandStore

end RfCloner
