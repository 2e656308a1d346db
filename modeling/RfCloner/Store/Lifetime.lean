/-
  The life of a device: operations and reboots in any order, on flash where any save may fail.

  `Stored P cfg r` is the flash half of the invariant: there is no header record, or the index
  record is the index of *some* store with property `P`.  It says nothing about the payloads, which
  a failed relearn may have damaged.  `boot` turns it into the RAM half (`boot_sound`), every
  operation keeps both (`Session.step`), and `registry_invariant` is what a user can rely on after
  any run.
-/
import RfCloner.Store.Changes

namespace RfCloner

open FixedCodec StorageBackend

namespace CommandStore

/-! ## What a slot of a stored index can become -/

section Reload

variable {r : Records UInt32} {cfg : Config} {c d : Command} {i : Nat}

/-- A stored slot that loads is the command that was stored there, with a waveform of the same
    length, which is the one its payload record holds. -/
theorem slotOutcome_eq_loaded (hc : c.occupied = true → Storable c)
    (h : slotOutcome r.load cfg i (StoredSlot.ofCommand c) = .loaded d) :
    c.occupied = true ∧ d = { c with timings := d.timings } ∧
    d.timings.length = c.timings.length ∧ d.timings.length ≤ cfg.maxPulses.toNat ∧
    r (cfg.payloadKey (UInt8.ofNat i)) = some (timingsBytes d.timings) := by
  by_cases hocc : c.occupied = true
  · have hst := hc hocc
    have hpulses := ofCommand_pulseCount hocc hst.timings_lt
    rw [slotOutcome, ofCommand_named hocc hst] at h
    by_cases hfit : (StoredSlot.ofCommand c).fits cfg i = true
    · obtain ⟨hi, hle⟩ := (ofCommand_fits hocc hst cfg i).mp hfit
      rw [hfit] at h
      simp only [Bool.not_true, Bool.false_eq_true, if_false] at h
      cases hwave : (StoredSlot.ofCommand c).waveform r.load cfg i with
      | none =>
        rw [hwave] at h
        cases h
      | some timings =>
        rw [hwave] at h
        cases h
        rw [StoredSlot.waveform, hpulses] at hwave
        split at hwave
        · cases hwave
        · rename_i record hrecord
          obtain ⟨hrec, hlen⟩ := Records.load_eq_some.mp hrecord
          split at hwave
          · cases hwave
          · have htimings := Option.some.inj hwave
            have hcount : timings.length = c.timings.length := by
              rw [← htimings]
              exact sle32.length_decodeAll _ _
            have hname := ofCommand_cName hocc hst
            refine ⟨hocc, ?_, hcount, hcount ▸ hle, ?_⟩
            · rw [StoredSlot.toCommand, hname, StoredSlot.ofCommand, if_pos hocc]
            · rw [hrec, StoredSlot.toCommand, ← htimings, timingsBytes,
                sle32.encodeAll_decodeAll _ _ hlen]
    · rw [Bool.eq_false_iff.mpr hfit] at h
      cases h
  · rw [slotOutcome, ofCommand_free (Bool.eq_false_iff.mpr hocc)] at h
    cases h

/-- What reading the index of `t` leaves in RAM: its metadata, and in each slot either nothing or
    the command of that slot with the waveform its payload record holds. -/
structure Reloads (r : Records UInt32) (t u : CommandStore) : Prop where
  bridgeId : u.bridgeId = t.bridgeId
  nextCommandId : u.nextCommandId = t.nextCommandId
  revision : u.revision = t.revision
  restoreState : u.restoreState = t.restoreState
  sized : u.slots.length = u.config.maxCommands.toNat
  slots : ∀ i, u.slot i = {} ∨
    ((t.slot i).occupied = true ∧ u.slot i = { t.slot i with timings := (u.slot i).timings } ∧
      (u.slot i).timings.length = (t.slot i).timings.length ∧
      (u.slot i).timings.length ≤ u.config.maxPulses.toNat ∧
      r (u.config.payloadKey (UInt8.ofNat i)) = some (timingsBytes (u.slot i).timings))

theorem reloads_decoded {t : CommandStore} (hwf : t.WellFormed) :
    Reloads r t (decoded r.load cfg t.config.maxCommands t.indexRecord) := by
  have hmeta : storedMetaOf t.indexRecord = t.storedMeta := storedMetaOf_indexRecord t
  refine
    { bridgeId := congrArg StoredMeta.bridgeId hmeta
      nextCommandId := congrArg StoredMeta.nextCommandId hmeta
      revision := congrArg StoredMeta.revision hmeta
      restoreState := congrArg StoredMeta.restoreState hmeta
      sized := length_readSlots ..
      slots := ?_ }
  intro i
  have hslot : (decoded r.load cfg t.config.maxCommands t.indexRecord).slot i
      = if i < cfg.maxCommands.toNat ∧ i < t.config.maxCommands.toNat
        then (outcomeAt r.load t.indexRecord cfg i).command else {} := getD_readSlots ..
  by_cases hi : i < cfg.maxCommands.toNat ∧ i < t.config.maxCommands.toNat
  · rw [if_pos hi, outcomeAt, storedSlotAt_indexRecord t hi.2] at hslot
    cases hout : slotOutcome r.load cfg i (StoredSlot.ofCommand (t.slot i)) with
    | loaded d =>
      rw [hout] at hslot
      right
      rw [hslot]
      exact slotOutcome_eq_loaded (hwf.storable_slot i) hout
    | free | unfittable | faulty =>
      rw [hout] at hslot
      exact Or.inl hslot
  · rw [if_neg hi] at hslot
    exact Or.inl hslot

variable {t u : CommandStore}

theorem Reloads.slot_of_occupied (h : Reloads r t u) {i : Nat} (hocc : (u.slot i).occupied = true) :
    (t.slot i).occupied = true ∧ u.slot i = { t.slot i with timings := (u.slot i).timings } ∧
      (u.slot i).timings.length = (t.slot i).timings.length ∧
      (u.slot i).timings.length ≤ u.config.maxPulses.toNat ∧
      r (u.config.payloadKey (UInt8.ofNat i)) = some (timingsBytes (u.slot i).timings) := by
  rcases h.slots i with hfree | hloaded
  · rw [hfree] at hocc
    cases hocc
  · exact hloaded

theorem Reloads.same (h : Reloads r t u) {i : Nat} (hocc : (u.slot i).occupied = true) :
    (u.slot i).commandId = (t.slot i).commandId ∧ (u.slot i).name = (t.slot i).name := by
  rw [(h.slot_of_occupied hocc).2.1]
  exact ⟨rfl, rfl⟩

/-- **Reloading a sound index gives a sound store**, whatever has become of the payloads. -/
theorem Reloads.sound (h : Reloads r t u) (ht : t.Sound) : u.Sound := by
  have hslot : ∀ c ∈ u.commands, ∃ i, c = u.slot i ∧ (u.slot i).occupied = true := by
    intro c hc
    obtain ⟨i, hget, hocc⟩ := SlotTable.mem_content.mp hc
    subst hget
    exact ⟨i, rfl, hocc⟩
  have hold : ∀ i, (u.slot i).occupied = true → t.slot i ∈ t.commands := fun i hocc =>
    slot_mem_commands (h.slot_of_occupied hocc).1
  refine
    { sized := h.sized
      ids_nodup := SlotTable.Distinct.mono ht.ids_nodup fun i hocc => ?_
      names_nodup := SlotTable.Distinct.mono ht.names_nodup fun i hocc => ?_
      names_valid := ?_
      timings_pos := ?_
      timings_lt := ?_
      free := ?_
      restoreState_le := h.restoreState ▸ ht.restoreState_le
      timings_le := ?_
      id_lt := ?_
      next_pos := h.nextCommandId ▸ ht.next_pos
      revision_pos := h.revision ▸ ht.revision_pos
      revision_le := h.revision ▸ ht.revision_le }
  · exact ⟨(h.slot_of_occupied hocc).1, (h.same hocc).1⟩
  · exact ⟨(h.slot_of_occupied hocc).1, (h.same hocc).2⟩
  · intro c hc
    obtain ⟨i, rfl, hocc⟩ := hslot c hc
    rw [(h.same hocc).2]
    exact ht.names_valid (t.slot i) (hold i hocc)
  · intro c hc
    obtain ⟨i, rfl, hocc⟩ := hslot c hc
    rw [(h.slot_of_occupied hocc).2.2.1]
    exact ht.timings_pos _ (hold i hocc)
  · intro c hc
    obtain ⟨i, rfl, hocc⟩ := hslot c hc
    rw [(h.slot_of_occupied hocc).2.2.1]
    exact ht.timings_lt _ (hold i hocc)
  · -- a slot that did not load is free, and a free slot is blank
    intro i hfree
    rcases h.slots i with heq | ⟨htocc, heq, -⟩
    · exact heq
    · rw [heq] at hfree
      exact absurd (htocc : (t.slot i).occupied = true) (Bool.eq_false_iff.mp hfree)
  · intro c hc
    obtain ⟨i, rfl, hocc⟩ := hslot c hc
    exact (h.slot_of_occupied hocc).2.2.2.1
  · intro c hc
    obtain ⟨i, rfl, hocc⟩ := hslot c hc
    rw [(h.same hocc).1, h.nextCommandId]
    exact ht.id_lt (t.slot i) (hold i hocc)

/-- What reloads takes no more bytes than what was stored. -/
theorem Reloads.payloadTotal_le (h : Reloads r t u) : u.payloadTotal ≤ t.payloadTotal := by
  apply SlotTable.total_le
  intro i
  show SlotTable.weight Command.payloadBytes (u.slot i)
    ≤ SlotTable.weight Command.payloadBytes (t.slot i)
  rw [weight_payloadBytes, weight_payloadBytes]
  split
  · rename_i hocc
    obtain ⟨htocc, -, hlen, -⟩ := h.slot_of_occupied hocc
    rw [if_pos htocc, hlen]
  · exact Nat.zero_le _

end Reload

/-! ## The flash half of the invariant -/

section Flash

variable {P : CommandStore → Prop} {cfg : Config} {r : Records UInt32}

/-- There is no header record, or the index record is the index of a store with property `P`. -/
def Stored (P : CommandStore → Prop) (cfg : Config) (r : Records UInt32) : Prop :=
  r cfg.headerKey = none ∨ ∃ written t, t.config.keySalt = cfg.keySalt ∧ P t ∧
    r cfg.headerKey = some (headerRecord written) ∧ r cfg.indexKey = some t.indexRecord

theorem Stored.of_salt {cfg' : Config} (h : Stored P cfg r) (hsalt : cfg'.keySalt = cfg.keySalt) :
    Stored P cfg' r := by
  rw [Stored, Config.headerKey, Config.indexKey, hsalt]
  exact h

theorem Stored.save_payload (h : Stored P cfg r) (i : UInt8) (d : Bytes) :
    Stored P cfg (r.save (cfg.payloadKey i) d) := by
  rw [Stored, Records.save_of_ne (cfg.payloadKey_ne_headerKey i).symm,
    Records.save_of_ne (cfg.payloadKey_ne_indexKey i).symm]
  exact h

theorem Stored.save_index {t : CommandStore} (h : Stored P t.config r) (ht : P t) :
    Stored P t.config (r.save t.config.indexKey t.indexRecord) := by
  have hkey : (r.save t.config.indexKey t.indexRecord) t.config.headerKey = r t.config.headerKey :=
    Records.save_of_ne t.config.headerKey_ne_indexKey _ _
  rcases h with hnone | ⟨written, -, -, -, hheader, -⟩
  · exact Or.inl (hkey.trans hnone)
  · exact Or.inr ⟨written, t, rfl, ht, hkey.trans hheader, Records.save_self _ _ _⟩

theorem Stored.apply_indexRecords {t : CommandStore} (ht : P t) :
    Stored P t.config (r.apply t.indexRecords) :=
  Or.inr ⟨t.config, t, rfl, ht, apply_indexRecords_header, apply_indexRecords_index⟩

/-- **A write that stops anywhere leaves the flash as it should be.** -/
theorem Stored.apply_records {t : CommandStore} (h : Stored P t.config r) (ht : P t)
    (payload : Option Nat) (n : Nat) : Stored P t.config (r.apply ((t.records payload).take n)) := by
  have hindex : ∀ (r : Records UInt32), Stored P t.config r → ∀ n,
      Stored P t.config (r.apply (t.indexRecords.take n)) := by
    intro r hr n
    rcases n with _ | _ | n
    · rw [List.take_zero]
      exact hr
    · exact hr.save_index ht
    · rw [List.take_of_length_le (Nat.le_add_left 2 n)]
      exact Stored.apply_indexRecords ht
  cases payload with
  | none =>
    rw [records_none]
    exact hindex r h n
  | some i =>
    rw [records_some]
    cases n with
    | zero =>
      rw [List.take_zero]
      exact h
    | succ n =>
      rw [List.take_succ_cons]
      exact hindex _ (h.save_payload _ _) n

end Flash

/-! ## Writing on flash that can fail -/

/-- What the writes of an operation come to when any save may fail: either all of them land, and
    the operation is told so; or some save fails after the first `n` have landed, and the operation
    rolls back. -/
theorem run_cases (lands : Nat → Bool) {op : Op} {s next undone : CommandStore}
    {payload : Option Nat} (hplan : op.plan s = .write payload next undone) (io : Fake UInt32) :
    let out := op.run (faulty lands) s io
    (out.1 = .ok ∧ out.2.1 = next ∧
      out.2.2.records = io.records.apply (next.records payload)) ∨
    (out.1 = .storageError ∧ out.2.1 = undone ∧ ∃ n < (next.records payload).length,
      out.2.2.records = io.records.apply ((next.records payload).take n) ∧
      (∀ i < n, lands (io.attempts + i) = true) ∧ lands (io.attempts + n) = false) := by
  intro out
  have hout : out = _ := run_of_write (faulty lands) hplan io
  obtain ⟨n, hn, hrec, hok, hfail, hbefore⟩ := saveAll_faulty lands (next.records payload) io
  generalize (faulty lands).saveAll (next.records payload) io = saved at hout hrec hok hfail
  obtain ⟨success, io'⟩ := saved
  cases success with
  | true =>
    left
    rw [hok rfl, List.take_length] at hrec
    rw [hout]
    exact ⟨rfl, rfl, hrec⟩
  | false =>
    right
    obtain ⟨hlt, hl⟩ := hfail rfl
    rw [hout]
    exact ⟨rfl, rfl, n, hlt, hrec, hbefore, hl⟩

end CommandStore

/-! ## Sessions -/

/-- A device: the store in RAM, and its flash. -/
structure Session where
  store : CommandStore
  flash : Fake UInt32

/-- One event in the life of a device. -/
inductive Event where
  | op (op : Op)
  | reboot (config : Config) (random : Option BridgeId)
  deriving DecidableEq, Repr

/-- The configuration a device reboots into, if it does. -/
def Event.Under (allowed : Config → Prop) : Event → Prop
  | .op _ => True
  | .reboot config _ => allowed config

namespace Session

open CommandStore

/-- Flash that has never been written. -/
def blank : Fake UInt32 := { records := fun _ => none }

variable (lands : Nat → Bool)

/-- `configure` and `begin` over the flash of a device. -/
def boot (config : Config) (random : Option BridgeId) (flash : Fake UInt32) : Session :=
  let out := CommandStore.boot (faulty lands) config random flash
  ⟨out.2.1, out.2.2⟩

/-- The first boot of a fresh device. -/
def powerOn (config : Config) (random : Option BridgeId) : Session :=
  boot lands config random blank

/-- One event. -/
def step (x : Session) : Event → Session
  | .op op =>
    let out := op.run (faulty lands) x.store x.flash
    ⟨out.2.1, out.2.2⟩
  | .reboot config random => boot lands config random x.flash

/-- A run of events. -/
def run (x : Session) (events : List Event) : Session := events.foldl (step lands) x

theorem run_cons (x : Session) (e : Event) (events : List Event) :
    run lands x (e :: events) = run lands (step lands x e) events := rfl

theorem step_of_stop {x : Session} {op : Op} {result : StoreResult}
    (hplan : op.plan x.store = .stop result) : step lands x (.op op) = x := by
  rw [step, Op.run_of_stop hplan]

/-- **What an operation that writes does to a device.** -/
theorem step_cases {x : Session} {op : Op} {payload : Option Nat} {next undone : CommandStore}
    (hplan : op.plan x.store = .write payload next undone) :
    let result := (op.run (faulty lands) x.store x.flash).1
    let y := step lands x (.op op)
    (result = .ok ∧ y.store = next ∧
      y.flash.records = x.flash.records.apply (next.records payload)) ∨
    (result = .storageError ∧ y.store = undone ∧ ∃ n < (next.records payload).length,
      y.flash.records = x.flash.records.apply ((next.records payload).take n) ∧
      (∀ i < n, lands (x.flash.attempts + i) = true) ∧ lands (x.flash.attempts + n) = false) :=
  run_cases lands hplan x.flash

end Session

/-! ## What every run keeps -/

namespace CommandStore

/-- A property of stores that changes and reloads under the allowed configurations keep. -/
structure Preserved (allowed : Config → Prop) (P : CommandStore → Prop) : Prop where
  sound : ∀ {s : CommandStore}, P s → s.Sound
  mint : ∀ cfg random, allowed cfg → P ((configure cfg).mintIdentity random)
  reset : ∀ (s : CommandStore) (random : Option BridgeId), allowed s.config →
    P (s.resetStore random)
  resume : ∀ {s : CommandStore}, P s → P s.resume
  change : ∀ {s next : CommandStore} {payload : Option Nat}, Change s payload next → P s → P next
  reload : ∀ {r : Records UInt32} {t u : CommandStore}, allowed u.config → Reloads r t u → P t → P u

end CommandStore

namespace Session

open CommandStore

/-- The invariant of a device: its flash is `Stored`, and unless the session is read-only its store
    has the property too. -/
structure Kept (allowed : Config → Prop) (P : CommandStore → Prop) (x : Session) : Prop where
  allowed : allowed x.store.config
  backend : x.store.backend = true
  ram : x.store.readOnly = false → P x.store
  flash : Stored P x.store.config x.flash.records

section Kept

variable {lands : Nat → Bool} {allowed : Config → Prop} {P : CommandStore → Prop}
  (hP : Preserved allowed P)
include hP

variable (lands) in
omit hP in
/-- Booting a fresh device: the identity is minted and written, as far as the writes go. -/
theorem boot_fresh {cfg : Config} {flash : Fake UInt32} (hheader : flash.records cfg.headerKey = none)
    (random : Option BridgeId) :
    (boot lands cfg random flash).store = (configure cfg).mintIdentity random ∧
    ∃ n, (boot lands cfg random flash).flash.records
      = flash.records.apply (((configure cfg).mintIdentity random).indexRecords.take n) := by
  have hload : (faulty lands).load cfg.headerKey StoredHeader.codec.width flash = none := by
    show flash.records.load cfg.headerKey StoredHeader.codec.width = none
    rw [Records.load, hheader]
    rfl
  have hboot := boot_of_no_header cfg (faulty lands) flash random hload
  obtain ⟨n, -, hrec, -⟩ :=
    saveAll_faulty lands ((configure cfg).mintIdentity random).indexRecords flash
  rw [← writeIndex_eq_saveAll] at hrec
  exact ⟨congrArg (fun out => out.2.1) hboot, n,
    (congrArg (fun out => out.2.2.records) hboot).trans hrec⟩

omit hP in
/-- What a boot without a header leaves on flash when both of its saves land. -/
theorem records_boot_fresh {cfg : Config} {flash : Fake UInt32}
    (hload : flash.records.load cfg.headerKey StoredHeader.codec.width = none)
    (random : Option BridgeId) :
    (boot (fun _ => true) cfg random flash).flash.records
      = flash.records.apply ((configure cfg).mintIdentity random).indexRecords := by
  have hboot := boot_of_no_header cfg (sound : StorageBackend UInt32 (Fake UInt32)) flash random hload
  have hsaved := saveAll_sound ((configure cfg).mintIdentity random).indexRecords flash
  rw [← writeIndex_eq_saveAll] at hsaved
  refine (congrArg (fun out => out.2.2.records) hboot).trans ?_
  rw [hsaved]
  rfl

variable (lands) in
omit hP in
/-- Booting a device whose flash has been written: nothing is saved, and a store that is not
    read-only has been reloaded from a stored index. -/
theorem boot_stored (hsound : ∀ {s : CommandStore}, P s → s.Sound) {cfg : Config} {flash : Fake UInt32} (hflash : Stored P cfg flash.records)
    (hheader : flash.records cfg.headerKey ≠ none) (random : Option BridgeId) :
    (boot lands cfg random flash).store.config = cfg ∧
    (boot lands cfg random flash).store.backend = true ∧
    (boot lands cfg random flash).flash = flash ∧
    ((boot lands cfg random flash).store.readOnly = false →
      ∃ t, P t ∧ Reloads flash.records t (boot lands cfg random flash).store) := by
  obtain ⟨written, t, hsalt, ht, hh, hindex⟩ := hflash.resolve_left hheader
  have hload : (faulty lands).load cfg.headerKey StoredHeader.codec.width flash
      = some (headerRecord written) :=
    Records.load_eq_some.mpr ⟨hh, length_headerRecord written⟩
  have hboot := boot_of_header cfg (faulty lands) flash random hload
  have hkeep := readHeader_keeps (fun key len => (faulty lands).load key len flash)
    (configure cfg) (headerRecord written)
  refine ⟨(congrArg (fun out => out.2.1.config) hboot).trans hkeep.1,
    (congrArg (fun out => out.2.1.backend) hboot).trans hkeep.2,
    congrArg (fun out => out.2.2) hboot, ?_⟩
  intro hw
  obtain ⟨m, raw, -, hr⟩ := readable_of_boot flash.records.load cfg (faulty lands) flash rfl hload hw
  obtain ⟨hraw, hlen⟩ := Records.load_eq_some.mp hr.index
  obtain rfl := Option.some.inj (hindex.symm.trans hraw)
  rw [length_indexRecord] at hlen
  obtain rfl := indexBytesFor_inj hlen
  have hstore : (Session.boot lands cfg random flash).store
      = decoded flash.records.load cfg t.config.maxCommands t.indexRecord :=
    congrArg Prod.fst (boot_of_readable flash.records.load cfg (faulty lands) flash rfl random hr).1
  rw [hstore]
  exact ⟨t, ht, reloads_decoded (hsound ht).toWellFormed⟩

/-- Booting from flash that is as it should be. -/
theorem Kept.boot {cfg : Config} (hcfg : allowed cfg) {flash : Fake UInt32}
    (hflash : Stored P cfg flash.records) (random : Option BridgeId) :
    Kept allowed P (boot lands cfg random flash) := by
  by_cases hheader : flash.records cfg.headerKey = none
  · obtain ⟨hstore, n, hwritten⟩ := boot_fresh lands hheader random
    refine ⟨by rw [hstore]; exact hcfg, by rw [hstore]; rfl, ?_, ?_⟩
    · intro _
      rw [hstore]
      exact hP.mint cfg random hcfg
    · rw [hstore, hwritten]
      exact Stored.apply_records (t := (configure cfg).mintIdentity random) hflash
        (hP.mint cfg random hcfg) none n
  · obtain ⟨hconfig, hbackend, hsame, hreload⟩ := boot_stored lands hP.sound hflash hheader random
    refine ⟨by rw [hconfig]; exact hcfg, hbackend, ?_, by rw [hconfig, hsame]; exact hflash⟩
    intro hw
    obtain ⟨t, ht, hr⟩ := hreload hw
    exact hP.reload (by rw [hconfig]; exact hcfg) hr ht

/-- One operation, whatever its saves do. -/
theorem Kept.op {x : Session} (hx : Kept allowed P x) (op : Op) :
    Kept allowed P (step lands x (.op op)) := by
  cases hplan : op.plan x.store with
  | stop result =>
    rw [step_of_stop lands hplan]
    exact hx
  | write payload next undone =>
    have hchange := op_change (fun hro => hP.sound (hx.ram hro)) hplan
    obtain ⟨-, hconfig, hbackend⟩ := op_next (fun hro => hP.sound (hx.ram hro)) hplan
    have hnext : P next := by
      rcases hchange with ⟨hro, hchange, -⟩ | ⟨random, -, -, rfl, -⟩
      · exact hP.change hchange (hx.ram hro)
      · exact hP.resume (hP.reset x.store random hx.allowed)
    have hflash : ∀ n, Stored P x.store.config
        (x.flash.records.apply ((next.records payload).take n)) := by
      intro n
      rw [← hconfig]
      exact Stored.apply_records (hconfig ▸ hx.flash) hnext payload n
    rcases step_cases lands hplan with ⟨-, hstore, hrec⟩ | ⟨-, hstore, n, -, hrec, -⟩
    · refine ⟨?_, ?_, ?_, ?_⟩
      · rw [hstore, hconfig]
        exact hx.allowed
      · rw [hstore, hbackend]
        exact hx.backend
      · intro _
        rw [hstore]
        exact hnext
      · rw [hstore, hrec, hconfig]
        have hall := hflash (next.records payload).length
        rwa [List.take_length] at hall
    · -- some save failed: RAM is rolled back, but for the new identity of a factory reset
      have hbefore := hflash n
      rw [← hrec] at hbefore
      have hundone : undone.config = x.store.config ∧ undone.backend = x.store.backend ∧
          (undone.readOnly = false → P undone) := by
        rcases hchange with ⟨-, -, rfl⟩ | ⟨random, -, -, -, rfl⟩
        · exact ⟨rfl, rfl, hx.ram⟩
        · exact ⟨rfl, rfl, fun _ => hP.reset x.store random hx.allowed⟩
      rw [← hstore] at hundone
      obtain ⟨hconfig', hbackend', hram⟩ := hundone
      exact ⟨by rw [hconfig']; exact hx.allowed, hbackend'.trans hx.backend, hram,
        by rw [hconfig']; exact hbefore⟩

/-- **Every run keeps the invariant.**  Induction on the events; a reboot may change the
    configuration, but not the key salt. -/
theorem Kept.run {x : Session} (hx : Kept allowed P x) {events : List Event}
    (hevents : ∀ e ∈ events, e.Under allowed)
    (hsalt : ∀ c c', allowed c → allowed c' → c.keySalt = c'.keySalt) :
    Kept allowed P (run lands x events) := by
  induction events generalizing x with
  | nil => exact hx
  | cons e events ih =>
    refine ih ?_ fun e he => hevents e (List.mem_cons_of_mem _ he)
    have he := hevents e List.mem_cons_self
    cases e with
    | op op => exact Kept.op hP hx op
    | reboot cfg random =>
      exact Kept.boot hP he (hx.flash.of_salt (hsalt _ _ he hx.allowed)) random

theorem Kept.powerOn {cfg : Config} (hcfg : allowed cfg) (random : Option BridgeId) :
    Kept allowed P (powerOn lands cfg random) :=
  Kept.boot hP hcfg (Or.inl rfl) random

end Kept

end Session

/-! ## The registry invariant -/

namespace CommandStore

/-- Soundness survives even a change of configuration. -/
theorem preserved_sound (allowed : Config → Prop) : Preserved allowed Sound where
  sound := id
  mint cfg random _ := mint_sound cfg random
  reset s random _ := resetStore_sound s random
  resume hs := hs.resume
  change h hs := h.sound hs
  reload _ h ht := h.sound ht

/-- Under one configuration the budget is kept as well. -/
theorem preserved_withinBudget {cfg : Config} (hover : overhead cfg ≤ cfg.maxStorageBytes.toNat) :
    Preserved (· = cfg) fun s => s.Sound ∧ s.WithinBudget ∧ s.config = cfg where
  sound h := h.1
  mint c random hc := by
    subst hc
    refine ⟨mint_sound c random, ?_, rfl⟩
    show overhead c + SlotTable.total Command.payloadBytes (List.replicate _ {}) ≤ _
    rw [total_replicate]
    exact hover
  reset s random hs := by
    refine ⟨resetStore_sound s random, ?_, hs⟩
    show overhead s.config + SlotTable.total Command.payloadBytes (List.replicate _ {})
      ≤ s.config.maxStorageBytes.toNat
    rw [total_replicate, hs]
    exact hover
  resume hs := ⟨hs.1.resume, hs.2.1, hs.2.2⟩
  change h hs := ⟨h.sound hs.1, h.withinBudget hs.1 hs.2.1, h.config.1.trans hs.2.2⟩
  reload hu h ht := by
    refine ⟨h.sound ht.1, ?_, hu⟩
    have hbudget := ht.2.1
    rw [WithinBudget, ht.2.2] at hbudget
    rw [WithinBudget, hu]
    exact Nat.le_trans (Nat.add_le_add_left h.payloadTotal_le _) hbudget

/-- Only `factory_reset` and `restore_begin` set the next id; everything else only moves it up. -/
theorem nextCommandId_le_plan {op : Op} {s next undone : CommandStore} {payload : Option Nat}
    (hreset : ∀ random, op ≠ .factoryReset random)
    (hbegin : ∀ bridgeId id, op ≠ .restoreBegin bridgeId id)
    (hplan : op.plan s = .write payload next undone) : s.nextCommandId ≤ next.nextCommandId := by
  cases op with
  | put c =>
    obtain ⟨-, -, -, -, slot, overwriting, id, rev, hslot, -, -, -, rfl, -⟩ := putPlan_eq_write hplan
    rcases putSlot_eq_ok hslot with ⟨rfl, -⟩ | ⟨rfl, -, -, hlast, rfl⟩
    · exact UInt32.le_refl _
    · exact UInt32.le_of_lt (lt_succ_of_le_last hlast)
  | rename id name =>
    obtain ⟨-, -, slot, rev, -, -, -, -, rfl, -⟩ := renamePlan_eq_write hplan
    exact UInt32.le_refl _
  | remove name =>
    obtain ⟨_, -, hplan'⟩ := removePlan_eq_write hplan
    obtain ⟨-, slot, rev, -, -, -, rfl, -⟩ := removeByIdPlan_eq_write hplan'
    exact UInt32.le_refl _
  | removeById id =>
    obtain ⟨-, slot, rev, -, -, -, rfl, -⟩ := removeByIdPlan_eq_write hplan
    exact UInt32.le_refl _
  | clearAll =>
    obtain ⟨-, -, rev, -, -, rfl, -⟩ := clearAllPlan_eq_write hplan
    exact UInt32.le_refl _
  | factoryReset random => exact absurd rfl (hreset random)
  | restoreBegin bridgeId id => exact absurd rfl (hbegin bridgeId id)
  | importCommand c =>
    obtain ⟨-, -, -, -, -, -, -, slot, rev, -, -, -, -, rfl, -⟩ := importCommandPlan_eq_write hplan
    exact UInt32.le_refl _
  | restoreCommit source =>
    obtain ⟨-, -, -, rev, -, -, rfl, -⟩ := restoreCommitPlan_eq_write hplan
    exact UInt32.le_refl _

theorem nextCommandId_le {op : Op} {s : CommandStore} (hs : s.readOnly = false → s.Sound)
    (hreset : ∀ random, op ≠ .factoryReset random)
    (hbegin : ∀ bridgeId id, op ≠ .restoreBegin bridgeId id)
    (lands : Nat → Bool) (io : Fake UInt32) :
    s.nextCommandId ≤ (op.run (faulty lands) s io).2.1.nextCommandId := by
  cases hplan : op.plan s with
  | stop result =>
    rw [Op.run_of_stop hplan]
    exact UInt32.le_refl _
  | write payload next undone =>
    obtain ⟨-, -, rfl⟩ := (op_change hs hplan).resolve_right
      fun ⟨random, hop, _⟩ => hreset random hop
    have hle : undone.nextCommandId ≤ next.nextCommandId := nextCommandId_le_plan hreset hbegin hplan
    rcases run_cases lands hplan io with ⟨-, hstore, -⟩ | ⟨-, hstore, -⟩
    · rw [hstore]
      exact hle
    · rw [hstore]
      exact UInt32.le_refl _

end CommandStore

namespace Session

open CommandStore

/-- **The registry invariant.**  After any run of operations and reboots under one configuration
    whose empty index fits its budget, with any pattern of failing saves, a store that is not
    read-only has distinct ids and names, valid names, ids below the next one, waveforms within the
    limits, counters within theirs and a byte count within the budget; and no operation other than
    the two that set the next id ever moves it down. -/
theorem registry_invariant {cfg : Config}
    (hover : indexOverheadBytes cfg.maxCommands ≤ cfg.maxStorageBytes) (lands : Nat → Bool)
    (random : Option BridgeId) {events : List Event}
    (hevents : ∀ e ∈ events, e.Under (· = cfg)) :
    let x := run lands (powerOn lands cfg random) events
    x.store.readOnly = false →
      (x.store.commands.map Command.commandId).Nodup ∧
      (x.store.commands.map Command.name).Nodup ∧
      (∀ c ∈ x.store.commands, validateName c.name = .ok) ∧
      (∀ c ∈ x.store.commands, commandIdFirst ≤ c.commandId ∧ c.commandId < x.store.nextCommandId) ∧
      (∀ c ∈ x.store.commands, 1 ≤ c.timings.length ∧ c.timings.length ≤ cfg.maxPulses.toNat) ∧
      (1 ≤ x.store.nextCommandId.toNat ∧ x.store.nextCommandId.toNat ≤ 2 ^ 32 - 1) ∧
      (∀ op : Op, (∀ random, op ≠ .factoryReset random) → (∀ b id, op ≠ .restoreBegin b id) →
        x.store.nextCommandId ≤ (step lands x (.op op)).store.nextCommandId) ∧
      (1 ≤ x.store.revision ∧ x.store.revision ≤ revisionMax) ∧
      x.store.usedBytes ≤ cfg.maxStorageBytes := by
  intro x hro
  have hover' : overhead cfg ≤ cfg.maxStorageBytes.toNat := by
    rw [← toNat_indexOverheadBytes]
    exact UInt32.le_iff_toNat_le.mp hover
  have hP := preserved_withinBudget hover'
  have hkept : Kept (· = cfg) _ x := (Kept.powerOn hP rfl random).run hP hevents
    (fun c c' hc hc' => by rw [hc, hc'])
  obtain ⟨hs, hbudget, hcfg⟩ := hkept.ram hro
  have hnext : (1 : UInt32).toNat ≤ x.store.nextCommandId.toNat :=
    UInt32.le_iff_toNat_le.mp hs.next_pos
  have hlast : x.store.nextCommandId.toNat < 2 ^ 32 := x.store.nextCommandId.toNat_lt
  refine ⟨hs.ids_nodup, hs.names_nodup, hs.names_valid, ?_, ?_, ⟨hnext, by omega⟩, ?_,
    ⟨hs.revision_pos, hs.revision_le⟩, ?_⟩
  · intro c hc
    have hocc : c.commandId ≠ commandIdNone :=
      Command.occupied_iff.mp (SlotTable.mem_content.mp hc).choose_spec.2
    exact ⟨UInt32.pos_iff_ne_zero.mpr hocc, hs.id_lt c hc⟩
  · intro c hc
    exact ⟨hs.timings_pos c hc, hcfg ▸ hs.timings_le c hc⟩
  · intro op hreset hbegin
    exact nextCommandId_le (fun _ => hs) hreset hbegin lands x.flash
  · rw [UInt32.le_iff_toNat_le, hs.usedBytes_toNat, ← hcfg]
    exact hbudget

/-- Learning one command on a device whose fourth save fails. -/
theorem registry_invariant_after_learn :
    let x := run (fun n => n ≠ 3) (powerOn (fun n => n ≠ 3) ⟨2, 4, 200, 7⟩ none)
      [.op (.put { name := ascii "on", timings := [350, -1050] }),
        .op (.put { name := ascii "on", timings := [350, -1050] })]
    x.store.usedBytes ≤ 200 := by
  have hevents : ∀ e ∈ [Event.op (.put { name := ascii "on", timings := [350, -1050] }),
      .op (.put { name := ascii "on", timings := [350, -1050] })],
      e.Under (· = ⟨2, 4, 200, 7⟩) := by simp [Event.Under]
  have h := registry_invariant (by decide) (fun n => n ≠ 3) none hevents (by decide +kernel)
  exact h.2.2.2.2.2.2.2.2

end Session

end RfCloner
