/-
  What `begin` makes of a record damaged by a burst.

  Each record carries a CRC-16 over the bytes before it (the waveforms carry theirs in the index),
  and a burst of up to 16 bits never leaves a CRC-16 as it was.  The loader checks the header first,
  then the index and then each waveform, and goes read-only at the first check that fails, so the
  record that was hit decides the fault: `burst_detected`.
-/
import RfCloner.Lib.Crc
import RfCloner.Store.Authored
import RfCloner.Store.Crash

namespace RfCloner

open FixedCodec StorageBackend

/-! ## The check, bit by bit -/

/-- The bits of a byte in the order `crc16_ccitt` takes them in. -/
def byteBits (byte : UInt8) : List Bool :=
  [byte.toBitVec.getLsbD 7, byte.toBitVec.getLsbD 6, byte.toBitVec.getLsbD 5,
    byte.toBitVec.getLsbD 4, byte.toBitVec.getLsbD 3, byte.toBitVec.getLsbD 2,
    byte.toBitVec.getLsbD 1, byte.toBitVec.getLsbD 0]

/-- The bits of a record. -/
def bits (data : Bytes) : List Bool := data.flatMap byteBits

@[simp] theorem length_byteBits (byte : UInt8) : (byteBits byte).length = 8 := rfl

@[simp] theorem bits_cons (byte : UInt8) (data : Bytes) :
    bits (byte :: data) = byteBits byte ++ bits data := rfl

theorem length_bits (data : Bytes) : (bits data).length = data.length * 8 := by
  induction data with
  | nil => rfl
  | cons byte data ih =>
    simp only [bits_cons, List.length_append, List.length_cons, length_byteBits, ih]
    omega

/-- A byte of the message, from the top of the register. -/
theorem aligned_byteBits (byte : UInt8) :
    Crc.aligned 16 (byteBits byte) = (byte.toUInt16 <<< 8).toBitVec := by
  have hall : ∀ i : Fin 256,
      Crc.aligned 16 (byteBits (UInt8.ofFin i)) = ((UInt8.ofFin i).toUInt16 <<< 8).toBitVec := by
    decide +kernel
  exact hall byte.toFin

theorem toBitVec_crcBit (crc : UInt16) :
    (crcBit crc).toBitVec = Crc.shift 0x1021#16 crc.toBitVec := by
  have htop : crc &&& 0x8000 ≠ 0 ↔ crc.toBitVec.msb = true := by
    rw [Ne, ← UInt16.toBitVec_inj, UInt16.toBitVec_and]
    show ¬ crc.toBitVec &&& BitVec.twoPow 16 15 = 0#16 ↔ _
    rw [BitVec.and_twoPow, BitVec.msb_eq_getLsbD_last]
    cases crc.toBitVec.getLsbD (16 - 1) <;> simp
  unfold crcBit Crc.shift
  by_cases hmsb : crc.toBitVec.msb = true
  · rw [if_pos (htop.mpr hmsb), if_pos hmsb]
    rfl
  · rw [if_neg fun h => hmsb (htop.mp h), if_neg hmsb]
    rfl

theorem toBitVec_crcByte (crc : UInt16) (byte : UInt8) :
    (crcByte crc byte).toBitVec = Crc.run 0x1021#16 crc.toBitVec (byteBits byte) := by
  have hsteps : ∀ (steps : List Nat) (c : UInt16),
      (steps.foldl (fun c _ => crcBit c) c).toBitVec
        = (Crc.shift 0x1021#16)^[steps.length] c.toBitVec := by
    intro steps
    induction steps with
    | nil => exact fun c => rfl
    | cons step steps ih =>
      intro c
      rw [List.foldl_cons, ih, toBitVec_crcBit]
      rfl
  rw [crcByte, hsteps, Crc.run_eq _ _ _ (by simp), aligned_byteBits]
  rfl

/-- **The loop of `crc16_ccitt` is the register of the library**, fed the bits of the message. -/
theorem toBitVec_crc16Ccitt (data : Bytes) :
    (crc16Ccitt data).toBitVec = Crc.run 0x1021#16 0xFFFF#16 (bits data) := by
  have hfold : ∀ (data : Bytes) (crc : UInt16),
      (data.foldl crcByte crc).toBitVec = Crc.run 0x1021#16 crc.toBitVec (bits data) := by
    intro data
    induction data with
    | nil => exact fun crc => rfl
    | cons byte data ih =>
      intro crc
      rw [List.foldl_cons, ih, toBitVec_crcByte, bits_cons, Crc.run, Crc.run, Crc.run,
        List.foldl_append]
  exact hfold data 0xFFFF

theorem crc16Ccitt_ne_of_burst {data damaged : Bytes} (h : Crc.Burst 16 (bits data) (bits damaged)) :
    crc16Ccitt damaged ≠ crc16Ccitt data := by
  intro heq
  have hrun := congrArg UInt16.toBitVec heq
  rw [toBitVec_crc16Ccitt, toBitVec_crc16Ccitt] at hrun
  exact Crc.run_ne_of_burst (by decide) h _ hrun

/-! ## A damaged record -/

/-- A burst of up to 16 bits within the first `covered` bytes of a record. -/
structure Damaged (covered : Nat) (record damaged : Bytes) : Prop where
  burst : Crc.Burst 16 (bits (record.take covered)) (bits (damaged.take covered))
  rest : damaged.drop covered = record.drop covered

namespace Damaged

variable {covered : Nat} {record damaged : Bytes}

theorem crc (h : Damaged covered record damaged) :
    crc16Ccitt (damaged.take covered) ≠ crc16Ccitt (record.take covered) :=
  crc16Ccitt_ne_of_burst h.burst

/-- Damage does not change the length of a record. -/
theorem length (h : Damaged covered record damaged) : damaged.length = record.length := by
  have htake : (damaged.take covered).length = (record.take covered).length := by
    obtain ⟨pre, mid, mid', post, hbits, hbits', hlen, -, -⟩ := h.burst
    have hb := congrArg List.length hbits
    have hb' := congrArg List.length hbits'
    simp only [length_bits, List.length_append] at hb hb'
    omega
  have hdrop := congrArg List.length h.rest
  rw [← List.take_append_drop covered damaged, ← List.take_append_drop covered record,
    List.length_append, List.length_append, htake, hdrop]

/-- A record whose first byte has lost its lowest bit, or gained it. -/
def flipped : Bytes → Bytes
  | [] => []
  | byte :: data => (byte ^^^ 1) :: data

/-- One bit is a burst. -/
theorem of_flipped (hne : record ≠ []) (hpos : 0 < covered) :
    Damaged covered record (flipped record) := by
  obtain ⟨byte, data, rfl⟩ := List.exists_cons_of_ne_nil hne
  obtain ⟨n, rfl⟩ := Nat.exists_eq_succ_of_ne_zero hpos.ne'
  refine ⟨⟨(byteBits byte).take 7, [byte.toBitVec.getLsbD 0], [!byte.toBitVec.getLsbD 0],
    bits (data.take n), rfl, ?_, rfl, Nat.le_add_left 1 15, by simp⟩, rfl⟩
  show byteBits (byte ^^^ 1) ++ bits (data.take n) = _
  have hflip : byteBits (byte ^^^ 1) = (byteBits byte).take 7 ++ [!byte.toBitVec.getLsbD 0] := by
    simp [byteBits, UInt8.toBitVec_xor]
  rw [hflip]

end Damaged

/-! ## The checks of the loader -/

namespace CommandStore

variable {load : Loader} {cfg : Config}

theorem decode_crc16 (h : Bytes) :
    (StoredHeader.codec.decode h).crc16
      = le16.decode (h.drop (StoredHeader.codec.width - crcBytes)) := by
  show le16.decode (((((h.drop 2).drop 1).drop 1).drop 2).drop 2) = _
  simp only [List.drop_drop]
  rfl

/-- A header whose CRC does not match is refused, whatever else it says. -/
theorem readHeader_of_crc {h : Bytes} (hcrc : (StoredHeader.codec.decode h).crc16
      ≠ crc16Ccitt (h.take (StoredHeader.codec.width - crcBytes))) :
    ((configure cfg).readHeader load h).2 = unloaded cfg .headerInvalid := by
  simp only [readHeader]
  rw [if_pos (Or.inr (Or.inl hcrc))]
  rfl

/-- Below a good header, an index that is not intact is refused. -/
theorem readHeader_of_index {h : Bytes} {m : UInt8} (hs : HeaderStates h m)
    (hbad : ∀ raw, load cfg.indexKey (indexBytesFor m) = some raw → indexIntact raw = false) :
    ((configure cfg).readHeader load h).2 = unloaded cfg .indexInvalid := by
  rw [readHeader_of_states load hs, loadIndex, if_neg (not_not_intro hs.indexBytes)]
  cases hraw : load (configure cfg).config.indexKey (indexBytesFor m) with
  | none => rfl
  | some raw => simp only [hbad raw hraw, Bool.not_false, if_true]; rfl

theorem indexIntact_of_damaged {record damaged : Bytes} (hintact : indexIntact record = true)
    (h : Damaged (record.length - crcBytes) record damaged) : indexIntact damaged = false := by
  rw [indexIntact, beq_iff_eq] at hintact
  rw [indexIntact, beq_eq_false_iff_ne, h.length, h.rest, ← hintact]
  exact h.crc

/-- A waveform that is read has a record of its length, which passes its check. -/
theorem load_of_waveform {slot : StoredSlot} {i : Nat} {timings : List Int32}
    (hwave : slot.waveform load cfg i = some timings) :
    ∃ record, load (cfg.payloadKey (UInt8.ofNat i)) (slot.pulseCount.toNat * sle32.width)
        = some record ∧
      timingsCrc (sle32.decodeAll slot.pulseCount.toNat record) = slot.payloadCrc16 := by
  unfold StoredSlot.waveform at hwave
  split at hwave
  · cases hwave
  · rename_i record hload
    split at hwave
    · cases hwave
    · rename_i hcrc
      exact ⟨record, hload, not_not.mp hcrc⟩

/-- A waveform is read from the bytes of its record as they are. -/
theorem timingsCrc_decodeAll {n : Nat} (hn : n ≠ 0) {record : Bytes}
    (hlen : record.length = n * sle32.width) :
    timingsCrc (sle32.decodeAll n record) = crc16Ccitt record := by
  have hne : (sle32.decodeAll n record).isEmpty = false := by
    rw [List.isEmpty_eq_false_iff_exists_mem]
    exact List.exists_mem_of_length_pos (by rw [length_decodeAll]; omega)
  rw [timingsCrc, hne, if_neg Bool.false_ne_true, timingsBytes, encodeAll_decodeAll _ _ _ hlen]

section Payload

variable {r : Records UInt32} {raw record damaged : Bytes} {i : Nat}
  (hrecord : r (cfg.payloadKey (UInt8.ofNat i)) = some record)
  (h : Damaged record.length record damaged)
include hrecord h

/-- A slot that loaded is faulty once its waveform is damaged. -/
theorem isFaulty_of_damaged {c : Command} (hloaded : outcomeAt r.load raw cfg i = .loaded c) :
    (outcomeAt (r.save (cfg.payloadKey (UInt8.ofNat i)) damaged).load raw cfg i).isFaulty = true := by
  obtain ⟨hnamed, hfits, timings, hwave, -⟩ := outcomeAt_eq_loaded.mp hloaded
  generalize hslot : storedSlotAt raw i = slot at hnamed hfits hwave
  have hpulses : slot.pulseCount.toNat ≠ 0 := by
    intro hz
    unfold StoredSlot.named at hnamed
    rw [show slot.pulseCount = 0 from UInt16.toNat_inj.mp hz] at hnamed
    simp at hnamed
  obtain ⟨record', hload, hcrc⟩ := load_of_waveform hwave
  obtain ⟨hget, hlen⟩ := Records.load_eq_some.mp hload
  obtain rfl := Option.some.inj (hrecord.symm.trans hget)
  rw [timingsCrc_decodeAll hpulses hlen] at hcrc
  -- the index keeps the check of the waveform that was written
  have hbad : slot.waveform (r.save (cfg.payloadKey (UInt8.ofNat i)) damaged).load cfg i = none := by
    by_contra hsome
    obtain ⟨timings', hwave'⟩ := Option.ne_none_iff_exists'.mp hsome
    obtain ⟨record', hload', hcrc'⟩ := load_of_waveform hwave'
    obtain ⟨hget', hlen'⟩ := Records.load_eq_some.mp hload'
    rw [Records.save_self] at hget'
    obtain rfl := Option.some.inj hget'
    rw [timingsCrc_decodeAll hpulses hlen', ← hcrc] at hcrc'
    have hne := h.crc
    rw [List.take_length, ← h.length, List.take_length] at hne
    exact hne hcrc'
  unfold outcomeAt slotOutcome
  rw [hslot, hnamed, hfits, hbad]
  rfl

/-- **A damaged waveform empties its slot and no other.** -/
theorem readSlots_of_damaged {n : Nat} (hn : n < 256) {c : Command}
    (hloaded : outcomeAt r.load raw cfg i = .loaded c) (hi : i < n) :
    readSlots (r.save (cfg.payloadKey (UInt8.ofNat i)) damaged).load raw cfg n
      = (readSlots r.load raw cfg n).set i {} := by
  have hfaulty := isFaulty_of_damaged hrecord h hloaded
  apply List.ext_getElem
  · rw [List.length_set, length_readSlots, length_readSlots]
  · intro j hj hj'
    simp only [List.getElem_set, readSlots, List.getElem_map, List.getElem_range]
    by_cases hij : i = j
    · subst hij
      rw [if_pos rfl, if_pos hi]
      cases hout : outcomeAt (r.save (cfg.payloadKey (UInt8.ofNat i)) damaged).load raw cfg i with
      | faulty name => rfl
      | free | unfittable | loaded => rw [hout] at hfaulty; cases hfaulty
    · rw [if_neg hij]
      by_cases hjn : j < n
      · have hkey := cfg.payloadKey_ne_payloadKey (i := j) (j := i) (by omega) (by omega) (Ne.symm hij)
        rw [if_pos hjn, if_pos hjn, outcomeAt_congr (Records.save_of_ne hkey r damaged)]
      · rw [if_neg hjn, if_neg hjn]

end Payload

/-! ## The headers on flash -/

/-- A record of the length of a header is a header that `begin` accepts. -/
def Headed (d : Bytes) : Prop := d.length = StoredHeader.codec.width → ∃ m, HeaderStates d m

theorem headed_of_mem_records {t : CommandStore} (hpos : t.config.maxCommands ≠ 0)
    {payload : Option Nat} {w : UInt32 × Bytes} (hw : w ∈ t.records payload) : Headed w.2 := by
  intro hlen
  rcases List.mem_append.mp hw with hpay | hindex
  · obtain ⟨i, -, rfl⟩ := Option.map_eq_some_iff.mp (Option.mem_toList.mp hpay)
    have h4 : (timingsBytes (t.slot i).timings).length = 10 := hlen
    rw [length_timingsBytes] at h4
    omega
  · rcases List.mem_cons.mp hindex with rfl | hheader
    · have h44 : t.indexRecord.length = 10 := hlen
      rw [length_indexRecord, indexBytesFor_eq] at h44
      omega
    · rw [List.mem_singleton.mp hheader]
      exact ⟨_, headerStates_headerRecord _ hpos⟩

end CommandStore

namespace Session

open CommandStore

variable {lands : Nat → Bool}

/-- A founded device whose configurations have slots: every header on its flash is accepted. -/
structure Accepted (x : Session) : Prop where
  founded : Founded x
  config : x.store.config.maxCommands ≠ 0
  headers : Records.All Headed x.flash.records

theorem Accepted.boot {cfg : Config} (hpos : cfg.maxCommands ≠ 0) {flash : Fake UInt32}
    (hflash : Authored flash.records) (h : Records.All Headed flash.records)
    (random : Option BridgeId) : Accepted (boot lands cfg random flash) := by
  refine ⟨Founded.boot hflash cfg random, ?_, ?_⟩
  · cases hload : (faulty lands).load cfg.headerKey StoredHeader.codec.width flash with
    | none =>
      rw [show (Session.boot lands cfg random flash).store = _ from
        congrArg (fun out => out.2.1) (boot_of_no_header cfg (faulty lands) flash random hload)]
      exact hpos
    | some header =>
      have hkeep := readHeader_keeps (fun key len => (faulty lands).load key len flash)
        (configure cfg) header
      rw [show (Session.boot lands cfg random flash).store = _ from
        congrArg (fun out => out.2.1) (boot_of_header cfg (faulty lands) flash random hload), hkeep.1]
      exact hpos
  · cases hload : (faulty lands).load cfg.headerKey StoredHeader.codec.width flash with
    | none =>
      have hboot := boot_of_no_header cfg (faulty lands) flash random hload
      obtain ⟨n, -, hrec, -⟩ :=
        saveAll_faulty lands ((configure cfg).mintIdentity random).indexRecords flash
      rw [← writeIndex_eq_saveAll] at hrec
      rw [show (Session.boot lands cfg random flash).flash.records = _ from
        (congrArg (fun out => out.2.2.records) hboot).trans hrec]
      have hmint : ((configure cfg).mintIdentity random).config.maxCommands ≠ 0 := hpos
      rw [← records_none]
      exact Records.All.apply
        (fun w hw => headed_of_mem_records hmint (List.mem_of_mem_take hw)) h
    | some header =>
      rw [show (Session.boot lands cfg random flash).flash = flash from
        congrArg (fun out => out.2.2) (boot_of_header cfg (faulty lands) flash random hload)]
      exact h

theorem Accepted.op {x : Session} (hx : Accepted x) (op : Op) :
    Accepted (step lands x (.op op)) := by
  cases hplan : op.plan x.store with
  | stop result =>
    rw [step_of_stop lands hplan]
    exact hx
  | write payload next undone =>
    obtain ⟨-, hconfig, -⟩ := op_next hx.founded.ram hplan
    have hundone : undone.config = x.store.config := by
      rcases op_change hx.founded.ram hplan with ⟨-, -, rfl⟩ | ⟨random, -, -, -, rfl⟩ <;> rfl
    have hnext : next.config.maxCommands ≠ 0 := hconfig ▸ hx.config
    refine ⟨hx.founded.op op, ?_, ?_⟩ <;>
      rcases step_cases lands hplan with ⟨-, hstore, hrec⟩ | ⟨-, hstore, n, -, hrec, -⟩
    · rw [hstore]
      exact hnext
    · rw [hstore, hundone]
      exact hx.config
    · rw [hrec]
      exact Records.All.apply (fun w hw => headed_of_mem_records hnext hw) hx.headers
    · rw [hrec]
      exact Records.All.apply
        (fun w hw => headed_of_mem_records hnext (List.mem_of_mem_take hw)) hx.headers

theorem Accepted.run {x : Session} (hx : Accepted x) {events : List Event}
    (hevents : ∀ e ∈ events, e.Under (·.maxCommands ≠ 0)) : Accepted (run lands x events) := by
  induction events generalizing x with
  | nil => exact hx
  | cons e events ih =>
    have hrest : ∀ e ∈ events, e.Under (·.maxCommands ≠ 0) :=
      fun e he => hevents e (List.mem_cons_of_mem _ he)
    cases e with
    | op op => exact ih (hx.op op) hrest
    | reboot cfg random =>
      exact ih (Accepted.boot (hevents _ List.mem_cons_self) hx.founded.flash hx.headers random) hrest

/-- **Every header on flash is accepted**, after any run of operations and reboots under
    configurations that have slots. -/
theorem accepted_run (lands : Nat → Bool) {cfg : Config} (hpos : cfg.maxCommands ≠ 0)
    (random : Option BridgeId) {events : List Event}
    (hevents : ∀ e ∈ events, e.Under (·.maxCommands ≠ 0)) :
    Accepted (Session.run lands (powerOn lands cfg random) events) :=
  (Accepted.boot hpos (all_blank Written) (all_blank Headed) random).run hevents

/-! ## Damaged flash -/

/-- The flash once the record under `key` is `d`. -/
def replaced (flash : Fake UInt32) (key : UInt32) (d : Bytes) : Fake UInt32 :=
  { flash with records := flash.records.save key d }

section Damaged

variable (lands) {flash : Fake UInt32} {cfg : Config} {header record damaged : Bytes}
  (hflash : Authored flash.records)
  (hheader : flash.records.load cfg.headerKey StoredHeader.codec.width = some header)
  (random : Option BridgeId)
include hflash hheader

/-- A damaged header. -/
theorem boot_damaged_header (h : Damaged (header.length - crcBytes) header damaged) :
    (boot lands cfg random (replaced flash cfg.headerKey damaged)).store
      = unloaded cfg .headerInvalid := by
  obtain ⟨hget, hlen⟩ := Records.load_eq_some.mp hheader
  obtain ⟨written, rfl⟩ := (hflash _ _ hget).header_of_length hlen
  have hload : (faulty lands).load cfg.headerKey StoredHeader.codec.width
      (replaced flash cfg.headerKey damaged) = some damaged :=
    Records.load_eq_some.mpr ⟨Records.save_self _ _ _, h.length.trans hlen⟩
  rw [show (boot lands cfg random (replaced flash cfg.headerKey damaged)).store = _ from
    congrArg (fun out => out.2.1) (boot_of_header cfg (faulty lands) _ random hload)]
  apply readHeader_of_crc
  rw [hlen] at h
  -- the stored check is that of the header as it was written
  have hcrc : (StoredHeader.codec.decode damaged).crc16
      = crc16Ccitt ((headerRecord written).take (StoredHeader.codec.width - crcBytes)) := by
    rw [decode_crc16, h.rest, ← decode_crc16, headerRecord, headerRecord_take, decode_encode]
    rfl
  rw [hcrc]
  exact Ne.symm h.crc

/-- A damaged index, below a header that is accepted. -/
theorem boot_damaged_index {m : UInt8} (hs : HeaderStates header m)
    (hrecord : flash.records cfg.indexKey = some record)
    (h : Damaged (record.length - crcBytes) record damaged) :
    (boot lands cfg random (replaced flash cfg.indexKey damaged)).store
      = unloaded cfg .indexInvalid := by
  have hkept := Records.load_congr
    (Records.save_of_ne cfg.headerKey_ne_indexKey flash.records damaged) StoredHeader.codec.width
  have hload : (faulty lands).load cfg.headerKey StoredHeader.codec.width
      (replaced flash cfg.indexKey damaged) = some header := hkept.trans hheader
  rw [show (boot lands cfg random (replaced flash cfg.indexKey damaged)).store = _ from
    congrArg (fun out => out.2.1) (boot_of_header cfg (faulty lands) _ random hload)]
  apply readHeader_of_index hs
  intro raw hraw
  have hraw' : (flash.records.save cfg.indexKey damaged).load cfg.indexKey (indexBytesFor m)
      = some raw := hraw
  obtain ⟨hget, hlen⟩ := Records.load_eq_some.mp hraw'
  rw [Records.save_self] at hget
  obtain rfl := Option.some.inj hget
  obtain ⟨t, -, rfl⟩ := (hflash _ _ hrecord).index_of_length (h.length.symm.trans hlen)
  exact indexIntact_of_damaged (indexIntact_indexRecord t) h

omit hflash in
/-- A damaged waveform of a command that is loaded. -/
theorem boot_damaged_payload {i : Nat}
    (hocc : ((boot lands cfg random flash).store.slot i).occupied = true)
    (hrecord : flash.records (cfg.payloadKey (UInt8.ofNat i)) = some record)
    (h : Damaged record.length record damaged) :
    (boot lands cfg random (replaced flash (cfg.payloadKey (UInt8.ofNat i)) damaged)).store
      = { (boot lands cfg random flash).store with
          slots := (boot lands cfg random flash).store.slots.set i {}
          readOnly := true
          fault := .payloadInvalid } := by
  have hclean : (boot lands cfg random flash).store
      = ((configure cfg).readHeader flash.records.load header).2 :=
    congrArg (fun out => out.2.1) (boot_of_header cfg (faulty lands) flash random hheader)
  rw [hclean] at hocc ⊢
  rcases readHeader_cases flash.records.load cfg header with
    ⟨fault, hout⟩ | ⟨m, raw, ro, fault, hs, hraw, hintact, hout⟩
  · -- a session that loaded nothing holds no command
    rw [hout] at hocc
    have hfree : ({ configure cfg with readOnly := true, fault := fault } : CommandStore).slot i
        = {} := slot_of_replicate rfl i
    rw [hfree] at hocc
    cases hocc
  · rw [hout] at hocc ⊢
    have hslot : ({ decoded flash.records.load cfg m raw with
        readOnly := ro, fault := fault } : CommandStore).slot i
        = if i < cfg.maxCommands.toNat ∧ i < m.toNat
          then (outcomeAt flash.records.load raw cfg i).command else {} := getD_readSlots ..
    rw [hslot] at hocc
    split at hocc
    · rename_i hi
      cases hcase : outcomeAt flash.records.load raw cfg i with
      | loaded c =>
        have hkept := Records.load_congr (Records.save_of_ne
          (cfg.payloadKey_ne_headerKey (UInt8.ofNat i)).symm flash.records damaged)
          StoredHeader.codec.width
        have hkept' := Records.load_congr (Records.save_of_ne
          (cfg.payloadKey_ne_indexKey (UInt8.ofNat i)).symm flash.records damaged) (indexBytesFor m)
        have hboot := boot_of_payload_fault
          (flash.records.save (cfg.payloadKey (UInt8.ofNat i)) damaged).load cfg (faulty lands)
          (replaced flash (cfg.payloadKey (UInt8.ofNat i)) damaged) rfl random
          (hkept.trans hheader) hs (hkept'.trans hraw) hintact
          ⟨i, hi.2, isFaulty_of_damaged hrecord h hcase⟩
        refine (congrArg Prod.fst hboot).trans ?_
        rw [decoded, readSlots_of_damaged hrecord h m.toNat_lt hcase hi.2]
        rfl
      | free | unfittable | faulty =>
        rw [hcase] at hocc
        cases hocc
    · cases hocc

end Damaged

/-! ## Every registry -/

/-- **Burst corruption is detected.**  Take any flash the store leaves behind, after any operations,
    failed saves and reboots under configurations that have slots, and let `begin` find a header
    there.  Then for every burst of up to 16 bits

    - in the header, `begin` goes read-only with `HEADER_INVALID` and loads nothing;
    - in the index, it goes read-only with `INDEX_INVALID` and loads nothing;
    - in the waveform of a command it would load, it goes read-only with `PAYLOAD_INVALID` and loads
      just what it loads from the undamaged flash, apart from that command. -/
theorem burst_detected (lands : Nat → Bool) {cfg : Config} (hpos : cfg.maxCommands ≠ 0)
    (random : Option BridgeId) {events : List Event}
    (hevents : ∀ e ∈ events, e.Under (·.maxCommands ≠ 0)) (cfg' : Config)
    (random' : Option BridgeId) {header : Bytes} :
    let flash := (Session.run lands (powerOn lands cfg random) events).flash
    let clean := (boot lands cfg' random' flash).store
    let read := fun key damaged => (boot lands cfg' random' (replaced flash key damaged)).store
    flash.records.load cfg'.headerKey StoredHeader.codec.width = some header →
    (∀ damaged, Damaged (header.length - crcBytes) header damaged →
      read cfg'.headerKey damaged
        = { configure cfg' with readOnly := true, fault := .headerInvalid }) ∧
    (∀ index damaged, flash.records cfg'.indexKey = some index →
      Damaged (index.length - crcBytes) index damaged →
      read cfg'.indexKey damaged
        = { configure cfg' with readOnly := true, fault := .indexInvalid }) ∧
    ∀ i waveform damaged, (clean.slot i).occupied = true →
      flash.records (cfg'.payloadKey (UInt8.ofNat i)) = some waveform →
      Damaged waveform.length waveform damaged →
      read (cfg'.payloadKey (UInt8.ofNat i)) damaged
        = { clean with
            slots := clean.slots.set i {}
            readOnly := true
            fault := .payloadInvalid } := by
  intro flash clean read hheader
  have haccepted := accepted_run lands hpos random hevents
  have hflash : Authored flash.records := haccepted.founded.flash
  obtain ⟨hget, hlen⟩ := Records.load_eq_some.mp hheader
  obtain ⟨m, hs⟩ := haccepted.headers _ _ hget hlen
  exact ⟨fun damaged h => boot_damaged_header lands hflash hheader random' h,
    fun index damaged hindex h => boot_damaged_index lands hflash hheader random' hs hindex h,
    fun i waveform damaged hocc hrecord h =>
      boot_damaged_payload lands hheader random' hocc hrecord h⟩

theorem learned_index : learned.flash.records learned.store.config.indexKey
    = some learned.store.indexRecord := by
  obtain ⟨payload, next, undone, hplan⟩ := putPlan_write_iff.mpr
    (show fresh.store.Accepts { name := ascii "a", timings := [350, -1050] } by decide +kernel)
  have hplan' : (Op.put { name := ascii "a", timings := [350, -1050] }).plan fresh.store
      = .write payload next undone := hplan
  rcases step_cases (fun _ => true) hplan' with ⟨-, hstore, hrec⟩ | ⟨-, -, n, -, -, -, hlands⟩
  · have hlearned : learned.store = next := hstore
    have hrecords : learned.flash.records = fresh.flash.records.apply (next.records payload) := hrec
    rw [hrecords, hlearned, CommandStore.records, Records.apply_append, apply_indexRecords_index]
  · cases hlands

theorem learned_config : learned.store.config = ⟨1, 4, 200, 7⟩ := by decide +kernel

theorem learned_loaded :
    ((boot (fun _ => true) ⟨1, 4, 200, 7⟩ none learned.flash).store.slot 0).occupied = true := by
  have hrestores := (learned_restores none).2
  rw [learned_config] at hrestores
  have hsame : ∀ s : CommandStore, s.slots = s.registry.slots := fun _ => rfl
  have hslots : (boot (fun _ => true) ⟨1, 4, 200, 7⟩ none learned.flash).store.slots
      = learned.store.slots := by
    rw [store_boot, hsame, hrestores, hsame]
  rw [CommandStore.slot, hslots]
  decide +kernel

theorem learned_header : learned.flash.records.load (Config.headerKey ⟨1, 4, 200, 7⟩)
    StoredHeader.codec.width = some (headerRecord ⟨1, 4, 200, 7⟩) := by decide +kernel

theorem learned_payload : learned.flash.records (Config.payloadKey ⟨1, 4, 200, 7⟩ (UInt8.ofNat 0))
    = some (timingsBytes [350, -1050]) := by decide +kernel

theorem learned_eq : Session.run (fun _ => true) (powerOn (fun _ => true) ⟨1, 4, 200, 7⟩ none)
    [.op (.put { name := ascii "a", timings := [350, -1050] })] = learned := rfl

/-- One flipped bit in each of the records of a device that has learned a command. -/
theorem burst_detected_learned :
    let cfg : Config := ⟨1, 4, 200, 7⟩
    let clean := (boot (fun _ => true) cfg none learned.flash).store
    let read := fun key damaged =>
      (boot (fun _ => true) cfg none (replaced learned.flash key damaged)).store
    read cfg.headerKey (Damaged.flipped (headerRecord cfg))
        = { configure cfg with readOnly := true, fault := .headerInvalid } ∧
      read cfg.indexKey (Damaged.flipped learned.store.indexRecord)
        = { configure cfg with readOnly := true, fault := .indexInvalid } ∧
      read (cfg.payloadKey (UInt8.ofNat 0)) (Damaged.flipped (timingsBytes [350, -1050]))
        = { clean with slots := clean.slots.set 0 {}, readOnly := true, fault := .payloadInvalid } := by
  have hslots : ∀ e ∈ ([.op (.put { name := ascii "a", timings := [350, -1050] })] : List Event),
      e.Under (·.maxCommands ≠ 0) := by simp [Event.Under]
  have h := @burst_detected (fun _ => true) ⟨1, 4, 200, 7⟩ (by decide) none _ hslots ⟨1, 4, 200, 7⟩ none
    (headerRecord ⟨1, 4, 200, 7⟩)
  rw [learned_eq] at h
  obtain ⟨hheader, hindex, hpayload⟩ := h learned_header
  have hrecord := learned_index
  have hlen : learned.store.indexRecord.length - crcBytes = 72 := by
    rw [length_indexRecord, learned_config]
    rfl
  rw [learned_config] at hrecord
  exact ⟨hheader _ (Damaged.of_flipped (by decide) (by decide)),
    hindex _ _ hrecord (Damaged.of_flipped (List.ne_nil_of_length_pos (by omega)) (by omega)),
    hpayload 0 _ _ learned_loaded learned_payload (Damaged.of_flipped (by decide) (by decide))⟩

end Session

end RfCloner
