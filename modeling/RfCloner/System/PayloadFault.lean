/-
  A bridge with damaged waveforms, and its listing.

  When a waveform does not load, `begin` goes read-only but loads the other commands, so that they
  can still be sent.  The status then lists those and no more, under the right identity and with no
  restore open: to the reconciler it is a complete listing.  `payload_fault_keeps_iff` is when the
  reconciler happens to do no harm.
-/
import RfCloner.Hass.Reconcile
import RfCloner.Device.Cloner

namespace RfCloner

open CommandStore CommandReconciler StorageBackend

/-! ## What the index names, and what is listed -/

section Index

variable {load : Loader} {cfg : Config} {m : UInt8} {raw : Bytes} {id : Int}

/-- The index names the command. -/
def Named (raw : Bytes) (m : UInt8) (id : Int) : Prop :=
  ∃ i < m.toNat, (storedSlotAt raw i).named = true ∧ ((storedSlotAt raw i).commandId.toNat : Int) = id

/-- A slot of the index that names the command fits the configuration, and its waveform loads. -/
def Playable (load : Loader) (cfg : Config) (raw : Bytes) (m : UInt8) (id : Int) : Prop :=
  ∃ i < m.toNat, (storedSlotAt raw i).named = true ∧
    ((storedSlotAt raw i).commandId.toNat : Int) = id ∧ (storedSlotAt raw i).fits cfg i = true ∧
    ((storedSlotAt raw i).waveform load cfg i).isSome = true

/-- The commands in RAM are those whose slots load. -/
theorem mem_commands_decoded :
    (∃ c ∈ (decoded load cfg m raw).commands, (c.commandId.toNat : Int) = id) ↔
      Playable load cfg raw m id := by
  have hslot : ∀ i, (decoded load cfg m raw).slot i
      = if i < cfg.maxCommands.toNat ∧ i < m.toNat then (outcomeAt load raw cfg i).command else {} :=
    fun i => getD_readSlots ..
  constructor
  · rintro ⟨c, hc, rfl⟩
    obtain ⟨i, hget, hocc⟩ := SlotTable.mem_content.mp hc
    have hget' : (decoded load cfg m raw).slot i = c := hget
    rw [hslot] at hget'
    split at hget'
    · rename_i hi
      cases hout : outcomeAt load raw cfg i with
      | loaded d =>
        rw [hout] at hget'
        obtain rfl : d = c := hget'
        obtain ⟨hnamed, hfits, timings, hwave, rfl⟩ := outcomeAt_eq_loaded.mp hout
        exact ⟨i, hi.2, hnamed, rfl, hfits, by rw [hwave]; rfl⟩
      | free | unfittable | faulty =>
        rw [hout] at hget'
        subst hget'
        cases hocc
    · subst hget'
      cases hocc
  · rintro ⟨i, hi, hnamed, hid, hfits, hwave⟩
    obtain ⟨timings, hwave⟩ := Option.isSome_iff_exists.mp hwave
    have hout := outcomeAt_eq_loaded.mpr ⟨hnamed, hfits, timings, hwave, rfl⟩
    have hlt : i < cfg.maxCommands.toNat := by
      unfold StoredSlot.fits at hfits
      simp at hfits
      exact hfits.1
    have hget := hslot i
    rw [if_pos ⟨hlt, hi⟩, hout] at hget
    refine ⟨(storedSlotAt raw i).toCommand timings, ?_, hid⟩
    refine SlotTable.mem_content.mpr ⟨i, hget, ?_⟩
    unfold StoredSlot.named at hnamed
    refine Command.occupied_iff.mpr fun hnone => ?_
    have hnone' : (storedSlotAt raw i).commandId = commandIdNone := hnone
    rw [hnone'] at hnamed
    cases hnamed

end Index

/-! ## Reconciling the status of a damaged bridge -/

section Fault

variable {σ ρ : Type} (B : StorageBackend UInt32 σ) (io : σ) (R : EntityRegistry ρ)
  {load : Loader} {cfg : Config} {m : UInt8} {h raw : Bytes} {r : CommandReconciler ρ}

/-- What the device reports, reconciled. -/
theorem keeps_of_payload_fault (hload : (fun key len => B.load key len io) = load)
    (random : Option BridgeId) (hh : load cfg.headerKey StoredHeader.codec.width = some h)
    (hs : HeaderStates h m) (hraw : load cfg.indexKey (indexBytesFor m) = some raw)
    (hintact : indexIntact raw = true)
    (hfaulty : ∃ i < m.toNat, (outcomeAt load raw cfg i).isFaulty = true)
    (hid : r.entry.uniqueId = some (storedMetaOf raw).bridgeId.hex) :
    let device : Cloner := ⟨(boot B cfg random io).2.1, []⟩
    device.store.readOnly = true ∧ device.store.fault = .payloadInvalid ∧
    (Keeps R (storedMetaOf raw).bridgeId.hex (Named raw m) r (r.asyncReconcile R device.rfStatus) ↔
      (storedMetaOf raw).restoreState ≠ 0 ∨
      (∀ id, Named raw m id → ¬ Playable load cfg raw m id →
        ¬ Organised R (storedMetaOf raw).bridgeId.hex r id) ∧
      ∀ id md, Named raw m id → metaFor r.entry id = some md →
        danglingTarget r.entry md = false) := by
  intro device
  have hboot := boot_of_payload_fault load cfg B io hload random hh hs hraw hintact hfaulty
  have hstore : device.store
      = { decoded load cfg m raw with readOnly := true, fault := .payloadInvalid } :=
    congrArg Prod.fst hboot
  have hbridge : device.rfStatus.bridgeId = (storedMetaOf raw).bridgeId.hex := by
    show device.store.bridgeId.hex = _
    rw [hstore]
    rfl
  have hrestore : device.store.restoreState = (storedMetaOf raw).restoreState := by
    rw [hstore]
    rfl
  have hlisted : ∀ id, id ∈ device.rfStatus.commands.map CommandInfo.commandId ↔
      Playable load cfg raw m id := by
    intro id
    rw [Cloner.mem_listed, hstore]
    exact mem_commands_decoded
  -- the reconciler sees the fault nowhere but in the listing
  refine ⟨by rw [hstore], by rw [hstore], ?_⟩
  by_cases hopen : (storedMetaOf raw).restoreState = 0
  · have hclosed : device.rfStatus.restoreIncomplete = false :=
      device.restoreIncomplete_rfStatus.mpr (hrestore.trans hopen)
    rw [keeps_asyncReconcile_iff hid hbridge hclosed]
    simp only [hlisted, hopen, ne_eq, not_true_eq_false, false_or]
  · have hincomplete : device.rfStatus.restoreIncomplete = true := by
      rw [← Bool.not_eq_false, device.restoreIncomplete_rfStatus, hrestore]
      exact hopen
    rw [asyncReconcile_of_incomplete hid hbridge hincomplete]
    exact iff_of_true (keeps_self r false) (Or.inl hopen)

/-- **A payload fault and the organisation.**  For any flash whose header and index are intact while
    some waveform does not load, the device comes up read-only with `PAYLOAD_INVALID`; and
    reconciling what it reports leaves the records and the metadata of the commands that the index
    names as they were exactly when the index marks an open restore, or no such command without a
    readable waveform has a record or metadata and none is assigned to a target that is gone. -/
theorem payload_fault_keeps_iff (random : Option BridgeId)
    (hh : B.load cfg.headerKey StoredHeader.codec.width io = some h) (hs : HeaderStates h m)
    (hraw : B.load cfg.indexKey (indexBytesFor m) io = some raw) (hintact : indexIntact raw = true)
    (hfaulty : ∃ i < m.toNat,
      (outcomeAt (fun key len => B.load key len io) raw cfg i).isFaulty = true)
    (hid : r.entry.uniqueId = some (storedMetaOf raw).bridgeId.hex) :
    let device : Cloner := ⟨(boot B cfg random io).2.1, []⟩
    device.store.readOnly = true ∧ device.store.fault = .payloadInvalid ∧
    (Keeps R (storedMetaOf raw).bridgeId.hex (Named raw m) r (r.asyncReconcile R device.rfStatus) ↔
      (storedMetaOf raw).restoreState ≠ 0 ∨
      (∀ id, Named raw m id →
        ¬ Playable (fun key len => B.load key len io) cfg raw m id →
        ¬ Organised R (storedMetaOf raw).bridgeId.hex r id) ∧
      ∀ id md, Named raw m id → metaFor r.entry id = some md →
        danglingTarget r.entry md = false) :=
  keeps_of_payload_fault B io R rfl random hh hs hraw hintact hfaulty hid

end Fault

/-! ## A damaged bridge -/

section Damaged

/-- Only the waveform of command 8 of the sample registry. -/
def remainingPayload : Records UInt32 :=
  Records.save (fun _ => none) (sampleRegistry.config.payloadKey 2) (timingsBytes [-1, 2, 3])

/-- The flash of the sample registry, with the waveform of command 4 missing. -/
def damagedFlash : Fake UInt32 where
  records := remainingPayload.apply sampleRegistry.indexRecords

/-- What loads from the damaged flash. -/
def damagedLoad : Loader := fun key len => sound.load key len damagedFlash

/-- An entry of the bridge with a button for one of its commands. -/
def organisationOf (id : Int) :
    CommandReconciler { l : List RegistryEntry // (l.map RegistryEntry.entityId).Nodup } where
  entry := { entryId := str "e", uniqueId := some BridgeId.zero.hex, options := [], subentries := [] }
  registry := ⟨[⟨str "button.b", commandUniqueId BridgeId.zero.hex id, str "e"⟩],
    List.nodup_singleton _⟩
  reserved := []
  identityMismatch := false
  knownTargets := []

theorem damagedLoad_eq (key : UInt32) (len : Nat) :
    damagedLoad key len = (remainingPayload.apply sampleRegistry.indexRecords).load key len := rfl

theorem damagedLoad_header :
    damagedLoad sampleRegistry.config.headerKey StoredHeader.codec.width
      = some (headerRecord sampleRegistry.config) := by
  rw [damagedLoad_eq, Records.load_eq_some]
  exact ⟨apply_indexRecords_header, length_headerRecord _⟩

theorem damagedLoad_index :
    damagedLoad sampleRegistry.config.indexKey (indexBytesFor 3)
      = some sampleRegistry.indexRecord := by
  rw [damagedLoad_eq, Records.load_eq_some]
  exact ⟨apply_indexRecords_index, length_indexRecord _⟩

/-- The waveform of command 4 does not load. -/
theorem damagedLoad_payload (len : Nat) :
    damagedLoad (sampleRegistry.config.payloadKey (UInt8.ofNat 0)) len = none := by
  have hnone : remainingPayload.apply sampleRegistry.indexRecords
      (sampleRegistry.config.payloadKey (UInt8.ofNat 0)) = none := by
    rw [apply_indexRecords_payload]
    exact Records.save_of_ne (by decide) _ _
  rw [damagedLoad_eq, Records.load, hnone]
  rfl

/-- What the three slots of the damaged index are. -/
theorem damaged_slots {i : Nat} (hi : i < (3 : UInt8).toNat) :
    i = 0 ∧ storedSlotAt sampleRegistry.indexRecord i = StoredSlot.ofCommand (sampleRegistry.slot 0) ∨
    i = 1 ∧ storedSlotAt sampleRegistry.indexRecord i = StoredSlot.ofCommand {} ∨
    i = 2 ∧ storedSlotAt sampleRegistry.indexRecord i
      = StoredSlot.ofCommand (sampleRegistry.slot 2) := by
  have hslot := storedSlotAt_indexRecord sampleRegistry hi
  have hi' : i < 3 := hi
  rcases i with _ | _ | _ | i
  · exact Or.inl ⟨rfl, hslot⟩
  · exact Or.inr (Or.inl ⟨rfl, hslot⟩)
  · exact Or.inr (Or.inr ⟨rfl, hslot⟩)
  · omega

theorem damaged_waveform :
    (StoredSlot.ofCommand (sampleRegistry.slot 0)).waveform damagedLoad sampleRegistry.config 0
      = none := by
  unfold StoredSlot.waveform
  rw [damagedLoad_payload]

theorem damaged_named : Named sampleRegistry.indexRecord 3 4 := by
  refine ⟨0, by decide, ?_⟩
  rw [storedSlotAt_indexRecord _ (by decide)]
  decide

theorem damaged_faulty : ∃ i < (3 : UInt8).toNat,
    (outcomeAt damagedLoad sampleRegistry.indexRecord sampleRegistry.config i).isFaulty = true := by
  refine ⟨0, by decide, ?_⟩
  unfold outcomeAt slotOutcome
  rw [storedSlotAt_indexRecord _ (by decide), damaged_waveform]
  decide

theorem damaged_unplayable :
    ¬ Playable damagedLoad sampleRegistry.config sampleRegistry.indexRecord 3 4 := by
  rintro ⟨i, hi, hnamed, hid, -, hwave⟩
  rcases damaged_slots hi with ⟨rfl, hslot⟩ | ⟨-, hslot⟩ | ⟨-, hslot⟩
  · rw [hslot, damaged_waveform] at hwave
    cases hwave
  · rw [hslot] at hnamed
    exact absurd hnamed (by decide)
  · rw [hslot] at hid
    exact absurd hid (by decide)

theorem damaged_playable :
    Playable damagedLoad sampleRegistry.config sampleRegistry.indexRecord 3 8 := by
  have hload : damagedLoad (sampleRegistry.config.payloadKey (UInt8.ofNat 2))
      ((sampleRegistry.slot 2).timings.length * FixedCodec.sle32.width)
      = some (timingsBytes (sampleRegistry.slot 2).timings) := by
    rw [damagedLoad_eq, Records.load_eq_some, apply_indexRecords_payload]
    exact ⟨Records.save_self _ _ _, by decide⟩
  have hwave := ofCommand_waveform (c := sampleRegistry.slot 2) (by decide)
    (Storable.of_valid (by decide) (by decide) (by decide)) damagedLoad sampleRegistry.config 2 hload
  refine ⟨2, by decide, ?_⟩
  rw [storedSlotAt_indexRecord _ (by decide), hwave]
  exact ⟨by decide, by decide, by decide, rfl⟩

/-- The only button of `organisationOf id` is that of command `id`. -/
theorem organised_organisationOf {id id' : Int} (hsmall : id.natAbs < 10 ^ Decimal.maxDigits) :
    Organised EntityRegistry.listed BridgeId.zero.hex (organisationOf id) id' ↔ id' = id := by
  have hrecords : ∀ x, x ∈ (organisationOf id).records EntityRegistry.listed ↔
      x = ⟨str "button.b", commandUniqueId BridgeId.zero.hex id, str "e"⟩ := by
    intro x
    unfold CommandReconciler.records organisationOf EntityRegistry.listed
    simp
  have hname := commandIdFromUniqueId_commandUniqueId BridgeId.zero.hex hsmall
  have hmeta : metaFor (organisationOf id).entry id' = none := rfl
  unfold Organised
  rw [hmeta]
  constructor
  · rintro (⟨x, hx, hid⟩ | hsome)
    · obtain rfl := (hrecords x).mp hx
      exact Option.some.inj (hid.symm.trans hname)
    · cases hsome
  · rintro rfl
    exact Or.inl ⟨_, (hrecords _).mpr rfl, hname⟩

/-- The metadata of the damaged index. -/
theorem damaged_meta : (storedMetaOf sampleRegistry.indexRecord).bridgeId = BridgeId.zero ∧
    (storedMetaOf sampleRegistry.indexRecord).restoreState = 0 := by
  rw [storedMetaOf_indexRecord]
  exact ⟨rfl, rfl⟩

/-- **The button of a command whose waveform is damaged is removed**, though the flash still names
    the command. -/
theorem payload_fault_removes_button :
    ¬ Keeps EntityRegistry.listed BridgeId.zero.hex (Named sampleRegistry.indexRecord 3)
      (organisationOf 4)
      ((organisationOf 4).asyncReconcile EntityRegistry.listed
        (Cloner.rfStatus ⟨(boot sound sampleRegistry.config none damagedFlash).2.1, []⟩)) := by
  obtain ⟨hbridge, hopen⟩ := damaged_meta
  have h := keeps_of_payload_fault sound damagedFlash EntityRegistry.listed (r := organisationOf 4)
    (show (fun key len => sound.load key len damagedFlash) = damagedLoad from rfl) none
    damagedLoad_header
    (headerStates_headerRecord sampleRegistry.config (by decide)) damagedLoad_index
    (indexIntact_indexRecord _) damaged_faulty (by rw [hbridge]; rfl)
  rw [hbridge] at h
  intro hkeeps
  rcases h.2.2.mp hkeeps with hrestore | ⟨hlost, -⟩
  · exact hrestore hopen
  · exact hlost 4 damaged_named damaged_unplayable
      ((organised_organisationOf (Decimal.lt_of_word (by decide))).mpr rfl)

/-- An organisation that knows only the command that can still be played is left alone. -/
theorem payload_fault_keeps_playable :
    Keeps EntityRegistry.listed BridgeId.zero.hex (Named sampleRegistry.indexRecord 3)
      (organisationOf 8)
      ((organisationOf 8).asyncReconcile EntityRegistry.listed
        (Cloner.rfStatus ⟨(boot sound sampleRegistry.config none damagedFlash).2.1, []⟩)) := by
  obtain ⟨hbridge, -⟩ := damaged_meta
  have h := payload_fault_keeps_iff sound damagedFlash EntityRegistry.listed (r := organisationOf 8)
    none damagedLoad_header
    (headerStates_headerRecord sampleRegistry.config (by decide)) damagedLoad_index
    (indexIntact_indexRecord _) damaged_faulty (by rw [hbridge]; rfl)
  rw [hbridge] at h
  refine h.2.2.mpr (Or.inr ⟨fun id _ hlost => ?_, fun id md _ hmeta => nomatch hmeta⟩)
  rw [organised_organisationOf (Decimal.lt_of_word (by decide))]
  rintro rfl
  exact hlost damaged_playable

end Damaged

end RfCloner
