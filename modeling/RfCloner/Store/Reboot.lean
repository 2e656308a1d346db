/-
  What a later `begin` makes of the flash.

  `Restores cfg r reg` says that a fresh store of configuration `cfg` over the records `r` comes up
  writable and with exactly the registry `reg`, whatever random bytes it is offered.  The crash and
  durability results are all about this predicate, and they all use it through two lemmas: an image
  restores its store (`Restores.of_image`), and whatever restores anything is readable
  (`Restores.readable`).
-/
import RfCloner.Store.Lifetime

namespace RfCloner

open FixedCodec StorageBackend

namespace CommandStore

/-- `begin` of a fresh store over the records `r`. -/
def reboot (cfg : Config) (random : Option BridgeId) (r : Records UInt32) : CommandStore :=
  (boot sound cfg random ⟨r, 0⟩).2.1

/-- What `begin` leaves in RAM depends on the backend only through what it loads. -/
theorem boot_store_eq {σ : Type} {B : StorageBackend UInt32 σ} {io : σ} {r : Records UInt32}
    (hload : (fun key len => B.load key len io) = r.load) (cfg : Config)
    (random : Option BridgeId) : (boot B cfg random io).2.1 = reboot cfg random r := by
  have hheader : B.load cfg.headerKey StoredHeader.codec.width io
      = r.load cfg.headerKey StoredHeader.codec.width :=
    congrFun (congrFun hload cfg.headerKey) StoredHeader.codec.width
  cases hh : r.load cfg.headerKey StoredHeader.codec.width with
  | none =>
    have hsound := boot_of_no_header cfg (sound : StorageBackend UInt32 (Fake UInt32)) ⟨r, 0⟩
      random hh
    rw [reboot, hsound, boot_of_no_header cfg B io random (hheader.trans hh)]
  | some h =>
    have hsound := boot_of_header cfg (sound : StorageBackend UInt32 (Fake UInt32)) ⟨r, 0⟩
      random hh
    rw [reboot, hsound, boot_of_header cfg B io random (hheader.trans hh), hload]
    rfl

/-- A fresh store over `r` comes up writable, with the registry `reg`. -/
def Restores (cfg : Config) (r : Records UInt32) (reg : Registry) : Prop :=
  ∀ random, (reboot cfg random r).readOnly = false ∧ (reboot cfg random r).registry = reg

section

variable {cfg : Config} {r r' : Records UInt32} {s t : CommandStore} {reg : Registry} {m : UInt8}
  {raw : Bytes}

/-- Without a header a store starts with a fresh identity. -/
theorem reboot_of_no_header (hheader : r.load cfg.headerKey StoredHeader.codec.width = none)
    (random : Option BridgeId) : reboot cfg random r = (configure cfg).mintIdentity random := by
  rw [reboot, boot_of_no_header cfg (sound : StorageBackend UInt32 (Fake UInt32)) ⟨r, 0⟩ random
    hheader]

theorem reboot_of_readable (hr : Readable r.load cfg m raw) (random : Option BridgeId) :
    reboot cfg random r = decoded r.load cfg m raw :=
  congrArg Prod.fst (boot_of_readable r.load cfg sound ⟨r, 0⟩ rfl random hr).1

theorem Restores.of_readable (hr : Readable r.load cfg m raw) :
    Restores cfg r (decoded r.load cfg m raw).registry := by
  intro random
  rw [reboot_of_readable hr]
  exact ⟨rfl, rfl⟩

theorem Sound.decoded_eq (hs : s.Sound) (him : Image r s) :
    (decoded r.load s.config s.config.maxCommands s.indexRecord).registry = s.registry :=
  him.decoded_eq hs.storable_slot hs.sized
    (fun _ hocc => hs.timings_le _ (slot_mem_commands hocc)) hs.free

/-- **The image of a sound store restores it.** -/
theorem Restores.of_image (hs : s.Sound) (him : Image r s) : Restores s.config r s.registry := by
  rw [← hs.decoded_eq him]
  exact Restores.of_readable (him.readable hs.storable_slot rfl)

/-- Flash restores one registry at most. -/
theorem Restores.unique {reg' : Registry} (h : Restores cfg r reg) (h' : Restores cfg r reg') :
    reg = reg' :=
  (h none).2.symm.trans (h' none).2

/-- Without a header record a store mints a new identity every time, so nothing is restored. -/
theorem Restores.header (h : Restores cfg r reg) :
    ∃ raw, r.load cfg.headerKey StoredHeader.codec.width = some raw := by
  cases hh : r.load cfg.headerKey StoredHeader.codec.width with
  | some raw => exact ⟨raw, rfl⟩
  | none =>
    have hminted : ∀ random, (reboot cfg random r).bridgeId = random.getD BridgeId.zero := by
      intro random
      rw [reboot_of_no_header hh]
      rfl
    have hsame : ∀ random, (reboot cfg random r).bridgeId = reg.bridgeId := fun random =>
      congrArg Registry.bridgeId (h random).2
    have hone := (hminted (some ⟨List.replicate bridgeIdBytes 1, List.length_replicate⟩)).symm.trans
      (hsame _)
    have hzero := (hminted none).symm.trans (hsame none)
    exact absurd (hone.trans hzero.symm) (by decide)

/-- A store that comes up writable over a header record was read from readable flash. -/
theorem readable_of_writable {random : Option BridgeId} {h : Bytes}
    (hh : r.load cfg.headerKey StoredHeader.codec.width = some h)
    (hw : (reboot cfg random r).readOnly = false) :
    ∃ m raw, HeaderStates h m ∧ Readable r.load cfg m raw :=
  readable_of_boot r.load cfg sound ⟨r, 0⟩ rfl hh hw

/-- **What restores a registry is readable**: where the index is that of some sound store `t`, the
    header states the slot count of `t` and the slots of `t` decode to the registry. -/
theorem Restores.readable (hst : Stored Sound cfg r) (h : Restores cfg r reg) :
    ∃ (raw : Bytes) (t : CommandStore),
      r.load cfg.headerKey StoredHeader.codec.width = some raw ∧
      HeaderStates raw t.config.maxCommands ∧ t.config.keySalt = cfg.keySalt ∧ t.Sound ∧
      r cfg.indexKey = some t.indexRecord ∧
      Readable r.load cfg t.config.maxCommands t.indexRecord ∧
      (decoded r.load cfg t.config.maxCommands t.indexRecord).registry = reg := by
  obtain ⟨raw, hraw⟩ := h.header
  have hne : r cfg.headerKey ≠ none := by
    rw [(Records.load_eq_some.mp hraw).1]
    exact Option.some_ne_none raw
  obtain ⟨-, t, hsalt, ht, -, hindex⟩ := hst.resolve_left hne
  obtain ⟨m, index, hstates, hr⟩ := readable_of_writable hraw (h none).1
  obtain ⟨hload, hlen⟩ := Records.load_eq_some.mp hr.index
  obtain rfl := Option.some.inj (hload.symm.trans hindex)
  obtain rfl := indexBytesFor_inj ((length_indexRecord t).symm.trans hlen)
  refine ⟨raw, t, hraw, hstates, hsalt, ht, hindex, hr, ?_⟩
  rw [← reboot_of_readable hr none]
  exact (h none).2

/-- Reading depends on the header, the index and what becomes of each slot. -/
theorem Readable.congr (hr : Readable r.load cfg m raw)
    (hheader : r' cfg.headerKey = r cfg.headerKey) (hindex : r' cfg.indexKey = r cfg.indexKey)
    (hslots : ∀ i < m.toNat, outcomeAt r'.load raw cfg i = outcomeAt r.load raw cfg i) :
    Readable r'.load cfg m raw ∧ decoded r'.load cfg m raw = decoded r.load cfg m raw := by
  refine ⟨⟨?_, ?_, hr.intact, ?_⟩, ?_⟩
  · rw [Records.load_congr hheader]
    exact hr.header
  · rw [Records.load_congr hindex]
    exact hr.index
  · intro i hi
    rw [hslots i hi]
    exact hr.payloads i hi
  · have hread : readSlots r'.load raw cfg m.toNat = readSlots r.load raw cfg m.toNat := by
      apply List.map_congr_left
      intro i _
      by_cases hi : i < m.toNat
      · rw [if_pos hi, if_pos hi, hslots i hi]
      · rw [if_neg hi, if_neg hi]
    rw [decoded, decoded, hread]

/-- The outcome of a slot depends on the records only through its own payload. -/
theorem outcomeAt_congr {i : Nat}
    (h : r' (cfg.payloadKey (UInt8.ofNat i)) = r (cfg.payloadKey (UInt8.ofNat i))) :
    outcomeAt r'.load raw cfg i = outcomeAt r.load raw cfg i := by
  rw [outcomeAt, outcomeAt, slotOutcome, slotOutcome, StoredSlot.waveform, StoredSlot.waveform,
    Records.load_congr h]

/-- A slot that holds no readable command does not look at its payload. -/
theorem outcomeAt_of_not_loaded {i : Nat} (hfaulty : (outcomeAt r.load raw cfg i).isFaulty = false)
    (hloaded : ∀ c, outcomeAt r.load raw cfg i ≠ .loaded c) :
    outcomeAt r'.load raw cfg i = outcomeAt r.load raw cfg i := by
  rw [outcomeAt, slotOutcome] at hfaulty
  have hno : ∀ c, slotOutcome r.load cfg i (storedSlotAt raw i) ≠ .loaded c := hloaded
  rw [slotOutcome] at hno
  rw [outcomeAt, outcomeAt, slotOutcome, slotOutcome]
  by_cases hnamed : (storedSlotAt raw i).named = true
  · by_cases hfits : (storedSlotAt raw i).fits cfg i = true
    · rw [hnamed, hfits] at hfaulty hno
      simp only [Bool.not_true, Bool.false_eq_true, if_false] at hfaulty hno
      split at hfaulty
      · cases hfaulty
      · rename_i timings hwave
        rw [hwave] at hno
        exact absurd rfl (hno _)
    · rw [Bool.eq_false_iff.mpr hfits]
      rfl
  · rw [Bool.eq_false_iff.mpr hnamed]
    rfl

end

/-! ## Coherence -/

section Coherent

variable {s next : CommandStore} {payload : Option Nat} {r r' : Records UInt32}

/-- Every command in RAM has its waveform on flash. -/
def Coherent (s : CommandStore) (r : Records UInt32) : Prop :=
  ∀ i, (s.slot i).occupied = true →
    r (s.config.payloadKey (UInt8.ofNat i)) = some (timingsBytes (s.slot i).timings)

theorem Coherent.congr (h : Coherent s r)
    (hsame : ∀ i : UInt8, r' (s.config.payloadKey i) = r (s.config.payloadKey i)) :
    Coherent s r' :=
  fun i hocc => (hsame _).trans (h i hocc)

/-- A change writes the waveform of the one command whose waveform it sets. -/
theorem Change.timings_eq (h : Change s payload next) {i : Nat}
    (hocc : (next.slot i).occupied = true) :
    payload = some i ∨
      (s.slot i).occupied = true ∧ (next.slot i).timings = (s.slot i).timings := by
  have hset : ∀ {t : CommandStore} {j : Nat} {c : Command}, (t.slot i).occupied = true →
      t.slots = s.slots.set j c → j < s.slots.length →
      i = j ∨ (s.slot i).occupied = true ∧ (t.slot i).timings = (s.slot i).timings := by
    intro t j c ht hslots hj
    rw [slot_of_set hslots hj] at ht ⊢
    by_cases hij : i = j
    · exact Or.inl hij
    · rw [if_neg hij] at ht ⊢
      exact Or.inr ⟨ht, rfl⟩
  have hempty : ∀ {t : CommandStore} {n : Nat}, (t.slot i).occupied = true →
      t.slots = List.replicate n {} → False := by
    intro t n ht hslots
    rw [slot_of_replicate hslots] at ht
    cases ht
  cases h with
  | store hi => exact (hset hocc rfl hi).imp_left fun hij => congrArg some hij.symm
  | relearn hold =>
    exact (hset hocc rfl (lt_of_slot_occupied hold)).imp_left fun hij => congrArg some hij.symm
  | @rename j name rev hold =>
    rcases hset hocc rfl (lt_of_slot_occupied hold) with rfl | hother
    · have hnew : CommandStore.slot
          { s with slots := s.slots.set i { s.slot i with name := name }, revision := rev } i
          = { s.slot i with name := name } := SlotTable.get_set_self (lt_of_slot_occupied hold) _
      rw [hnew]
      exact Or.inr ⟨hold, rfl⟩
    · exact Or.inr hother
  | @erase j rev hold =>
    rcases hset hocc rfl (lt_of_slot_occupied hold) with rfl | hother
    · have hnew : CommandStore.slot { s with slots := s.slots.set i {}, revision := rev } i = {} :=
        SlotTable.get_set_self (lt_of_slot_occupied hold) _
      rw [hnew] at hocc
      cases hocc
    · exact Or.inr hother
  | clear => exact (hempty hocc rfl).elim
  | adopt => exact Or.inr ⟨hocc, rfl⟩
  | commit => exact Or.inr ⟨hocc, rfl⟩

/-- The payload a change writes is that of an existing slot. -/
theorem Change.payload_lt (h : Change s payload next) {i : Nat} (hi : payload = some i) :
    i < next.slots.length := by
  cases h with
  | store hlt =>
    obtain rfl := Option.some.inj hi
    exact hlt.trans_eq (List.length_set ..).symm
  | relearn hocc =>
    obtain rfl := Option.some.inj hi
    exact (lt_of_slot_occupied hocc).trans_eq (List.length_set ..).symm
  | rename => cases hi
  | erase => cases hi
  | clear => cases hi
  | adopt => cases hi
  | commit => cases hi

/-- **With its payload written, a change keeps RAM and flash coherent.** -/
theorem Change.coherent (h : Change s payload next) (hn : next.Sound) (hcoh : Coherent s r) :
    Coherent next (r.apply (payload.map next.payloadRecord).toList) := by
  intro i hocc
  have hlen := hn.length_lt
  have hi := lt_of_slot_occupied hocc
  have hconfig := h.config.1
  have hold : payload ≠ some i →
      r (next.config.payloadKey (UInt8.ofNat i)) = some (timingsBytes (next.slot i).timings) := by
    intro hne
    obtain ⟨hs, htimings⟩ := (h.timings_eq hocc).resolve_left hne
    rw [hconfig, htimings]
    exact hcoh i hs
  cases hpay : payload with
  | none => exact hold (by rw [hpay]; exact (Option.some_ne_none i).symm)
  | some j =>
    have hj := h.payload_lt hpay
    show r.save (next.config.payloadKey (UInt8.ofNat j)) (timingsBytes (next.slot j).timings)
      (next.config.payloadKey (UInt8.ofNat i)) = _
    by_cases hij : i = j
    · rw [hij, Records.save_self]
    · rw [Records.save_of_ne (next.config.payloadKey_ne_payloadKey (by omega) (by omega) hij)]
      refine hold ?_
      rw [hpay]
      exact fun heq => hij (Option.some.inj heq).symm

/-- A store without commands is coherent with any flash. -/
theorem Coherent.of_empty {n : Nat} (h : s.slots = List.replicate n {}) : Coherent s r := by
  intro i hocc
  rw [slot_of_replicate h] at hocc
  cases hocc

/-- The index does not touch the payloads. -/
theorem Coherent.apply_indexRecords (h : Coherent s r) {t : CommandStore}
    (hconfig : t.config = s.config) : Coherent s (r.apply t.indexRecords) :=
  h.congr fun i => by rw [← hconfig]; exact apply_indexRecords_payload i

/-- What an operation writes is coherent with the flash once it is written, and restored from it. -/
theorem op_written {op : Op} {undone : CommandStore} (hs : s.readOnly = false → s.Sound)
    (hpos : s.config.maxCommands ≠ 0) (hcoh : s.readOnly = false → Coherent s r)
    (hplan : op.plan s = .write payload next undone) :
    Coherent next (r.apply (next.records payload)) ∧
      Restores next.config (r.apply (next.records payload)) next.registry := by
  obtain ⟨hsound, hconfig, -⟩ := op_next hs hplan
  have hpay : Coherent next (r.apply (payload.map next.payloadRecord).toList) := by
    rcases op_change hs hplan with ⟨hro, hchange, -⟩ | ⟨random, -, -, rfl, -⟩
    · exact hchange.coherent hsound (hcoh hro)
    · exact Coherent.of_empty rfl
  rw [CommandStore.records, Records.apply_append]
  refine ⟨hpay.apply_indexRecords rfl, Restores.of_image hsound
    (Image.of_apply_indexRecords (by rw [hconfig]; exact hpos) fun i _ hocc => hpay i hocc)⟩

/-- **An operation that wrote and returns `ok` is on flash**: a later `begin` restores exactly the
    registry in RAM. -/
theorem op_restores {op : Op} {undone : CommandStore} {lands : Nat → Bool} {io : Fake UInt32}
    (hs : s.readOnly = false → s.Sound) (hpos : s.config.maxCommands ≠ 0)
    (hcoh : s.readOnly = false → Coherent s io.records)
    (hplan : op.plan s = .write payload next undone)
    (hok : (op.run (faulty lands) s io).1 = .ok) :
    let out := op.run (faulty lands) s io
    out.2.1 = next ∧ Restores next.config out.2.2.records next.registry ∧
      Coherent next out.2.2.records := by
  intro out
  obtain ⟨hc, hr⟩ := op_written hs hpos hcoh hplan
  rcases run_cases lands hplan io with ⟨-, hstore, hrec⟩ | ⟨hfail, -⟩
  · rw [show out.2.2.records = _ from hrec]
    exact ⟨hstore, hr, hc⟩
  · rw [hok] at hfail
    cases hfail

end Coherent

end CommandStore

/-- What a reboot of a device leaves in RAM does not depend on which saves land. -/
theorem Session.store_boot (lands : Nat → Bool) (cfg : Config) (random : Option BridgeId)
    (flash : Fake UInt32) :
    (Session.boot lands cfg random flash).store = CommandStore.reboot cfg random flash.records :=
  CommandStore.boot_store_eq rfl cfg random

end RfCloner
