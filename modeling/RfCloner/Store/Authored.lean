/-
  Every record on flash is one this program wrote.

  `Kept` follows a device whose reboots keep the key salt, because `Stored` looks under the keys of
  one salt only.  `Authored` looks at every key: each record is a header, the index of a sound store
  or a waveform, and the three never have the same length.  A reboot under *any* configuration,
  salt included, therefore finds either no header it can read, or a header and an index that
  `write_index_` saved, so what it loads is sound.
-/
import RfCloner.Store.Reboot

namespace RfCloner

open FixedCodec StorageBackend

namespace CommandStore

/-! ## The three kinds of records -/

/-- A record one of the three writers saved. -/
inductive Written : Bytes → Prop where
  | header (cfg : Config) : Written (headerRecord cfg)
  | index {t : CommandStore} (ht : t.Sound) : Written t.indexRecord
  | payload (timings : List Int32) : Written (timingsBytes timings)

/-- Every record on flash was saved by this program. -/
def Authored (r : Records UInt32) : Prop := ∀ key d, r key = some d → Written d

/-- The length of a record gives its kind away: a header has 10 bytes. -/
theorem Written.header_of_length {d : Bytes} (h : Written d)
    (hlen : d.length = StoredHeader.codec.width) : ∃ cfg, d = headerRecord cfg := by
  rw [width_header] at hlen
  cases h with
  | header cfg => exact ⟨cfg, rfl⟩
  | @index t ht =>
    rw [length_indexRecord, indexBytesFor_eq] at hlen
    omega
  | payload timings =>
    rw [length_timingsBytes] at hlen
    omega

/-- An index of `m` slots has `30 + 44 * m` bytes, which is no multiple of four and not 10. -/
theorem Written.index_of_length {d : Bytes} (h : Written d) {m : UInt8}
    (hlen : d.length = indexBytesFor m) : ∃ t : CommandStore, t.Sound ∧ d = t.indexRecord := by
  rw [indexBytesFor_eq] at hlen
  cases h with
  | header cfg =>
    rw [length_headerRecord, width_header] at hlen
    omega
  | @index t ht => exact ⟨t, ht, rfl⟩
  | payload timings =>
    rw [length_timingsBytes] at hlen
    omega

section Authored

variable {r : Records UInt32}

/-- What an operation saves for a sound store is written by this program. -/
theorem Sound.written {t : CommandStore} (ht : t.Sound) {payload : Option Nat}
    {w : UInt32 × Bytes} (hw : w ∈ t.records payload) : Written w.2 := by
  rcases List.mem_append.mp hw with hpay | hindex
  · obtain ⟨i, -, rfl⟩ := Option.map_eq_some_iff.mp (Option.mem_toList.mp hpay)
    exact Written.payload _
  · rcases List.mem_cons.mp hindex with rfl | hheader
    · exact Written.index ht
    · rw [List.mem_singleton.mp hheader]
      exact Written.header _

theorem Authored.apply_records (h : Authored r) {t : CommandStore} (ht : t.Sound)
    (payload : Option Nat) (n : Nat) : Authored (r.apply ((t.records payload).take n)) :=
  Records.All.apply (fun _ hw => ht.written (List.mem_of_mem_take hw)) h

/-- The index of a store does not tell under which salt it was written. -/
theorem Sound.withSalt {t : CommandStore} (ht : t.Sound) (salt : UInt32) :
    { t with config := { t.config with keySalt := salt } }.Sound :=
  { ht with }

/-- **A header and an index of the length it states are a stored registry**, whatever salt they
    were written under. -/
theorem Authored.stored (h : Authored r) {cfg : Config} {m : UInt8} {header raw : Bytes}
    (hheader : r.load cfg.headerKey StoredHeader.codec.width = some header)
    (hindex : r.load cfg.indexKey (indexBytesFor m) = some raw) : Stored Sound cfg r := by
  obtain ⟨hh, hhlen⟩ := Records.load_eq_some.mp hheader
  obtain ⟨hi, hilen⟩ := Records.load_eq_some.mp hindex
  obtain ⟨written, rfl⟩ := (h _ _ hh).header_of_length hhlen
  obtain ⟨t, ht, rfl⟩ := (h _ _ hi).index_of_length hilen
  exact Or.inr ⟨written, { t with config := { t.config with keySalt := cfg.keySalt } }, rfl,
    ht.withSalt cfg.keySalt, hh, hi⟩

/-- What restores a registry is a stored registry. -/
theorem Authored.stored_of_restores (h : Authored r) {cfg : Config} {reg : Registry}
    (hrestores : Restores cfg r reg) : Stored Sound cfg r := by
  obtain ⟨raw, hraw⟩ := hrestores.header
  obtain ⟨m, index, -, hr⟩ := readable_of_writable hraw (hrestores none).1
  exact h.stored hraw hr.index

end Authored

end CommandStore

/-! ## Every run -/

namespace Session

open CommandStore

/-- A device whose flash holds only what this program wrote, and whose store is sound unless it is
    read-only. -/
structure Founded (x : Session) : Prop where
  backend : x.store.backend = true
  ram : x.store.readOnly = false → x.store.Sound
  flash : Authored x.flash.records

section Founded

variable {lands : Nat → Bool}

/-- A reboot, whatever the new configuration is. -/
theorem Founded.boot {flash : Fake UInt32} (hflash : Authored flash.records) (cfg : Config)
    (random : Option BridgeId) : Founded (boot lands cfg random flash) := by
  cases hload : (faulty lands).load cfg.headerKey StoredHeader.codec.width flash with
  | none =>
    -- no header this configuration can see: a fresh identity is minted and written
    have hboot := boot_of_no_header cfg (faulty lands) flash random hload
    have hmint := mint_sound cfg random
    obtain ⟨n, -, hrec, -⟩ :=
      saveAll_faulty lands ((configure cfg).mintIdentity random).indexRecords flash
    rw [← writeIndex_eq_saveAll] at hrec
    have hstore : (Session.boot lands cfg random flash).store
        = (configure cfg).mintIdentity random := congrArg (fun out => out.2.1) hboot
    have hwritten : (Session.boot lands cfg random flash).flash.records
        = flash.records.apply (((configure cfg).mintIdentity random).indexRecords.take n) :=
      (congrArg (fun out => out.2.2.records) hboot).trans hrec
    refine ⟨by rw [hstore]; rfl, fun _ => hstore ▸ hmint, ?_⟩
    rw [hwritten]
    exact hflash.apply_records hmint none n
  | some header =>
    have hboot := boot_of_header cfg (faulty lands) flash random hload
    have hkeep := readHeader_keeps (fun key len => (faulty lands).load key len flash)
      (configure cfg) header
    have hsame : (Session.boot lands cfg random flash).flash = flash :=
      congrArg (fun out => out.2.2) hboot
    refine ⟨(congrArg (fun out => out.2.1.backend) hboot).trans hkeep.2, ?_,
      by rw [hsame]; exact hflash⟩
    intro hw
    -- nothing is saved, and the index that was read is that of a sound store
    obtain ⟨m, raw, -, hr⟩ :=
      readable_of_boot flash.records.load cfg (faulty lands) flash rfl hload hw
    have hst : Stored Sound cfg flash.records := hflash.stored hload hr.index
    have hne : flash.records cfg.headerKey ≠ none := by
      rw [(Records.load_eq_some.mp hload).1]
      exact Option.some_ne_none header
    obtain ⟨-, -, -, hreload⟩ := boot_stored lands id hst hne random
    obtain ⟨t, ht, hreloads⟩ := hreload hw
    exact hreloads.sound ht

/-- One operation, whatever its saves do. -/
theorem Founded.op {x : Session} (hx : Founded x) (op : Op) : Founded (step lands x (.op op)) := by
  cases hplan : op.plan x.store with
  | stop result =>
    rw [step_of_stop lands hplan]
    exact hx
  | write payload next undone =>
    obtain ⟨hnext, -, hbackend⟩ := op_next hx.ram hplan
    have hundone : undone.backend = x.store.backend ∧ (undone.readOnly = false → undone.Sound) := by
      rcases op_change hx.ram hplan with ⟨-, -, rfl⟩ | ⟨random, -, -, -, rfl⟩
      · exact ⟨rfl, hx.ram⟩
      · exact ⟨rfl, fun _ => resetStore_sound x.store random⟩
    rcases step_cases lands hplan with ⟨-, hstore, hrec⟩ | ⟨-, hstore, n, -, hrec, -⟩
    · refine ⟨by rw [hstore, hbackend]; exact hx.backend, fun _ => hstore ▸ hnext, ?_⟩
      rw [hrec, ← List.take_length (l := next.records payload)]
      exact hx.flash.apply_records hnext payload _
    · refine ⟨by rw [hstore, hundone.1]; exact hx.backend, by rw [hstore]; exact hundone.2, ?_⟩
      rw [hrec]
      exact hx.flash.apply_records hnext payload n

/-- **Every run of operations and reboots leaves a founded device**, whatever saves fail and however
    the configuration changes. -/
theorem Founded.run {x : Session} (hx : Founded x) (events : List Event) :
    Founded (run lands x events) := by
  induction events generalizing x with
  | nil => exact hx
  | cons e events ih =>
    cases e with
    | op op => exact ih (hx.op op)
    | reboot cfg random => exact ih (Founded.boot hx.flash cfg random)

theorem all_blank (P : Bytes → Prop) : Records.All P blank.records := by
  intro key d h
  cases h

theorem founded_run (lands : Nat → Bool) (cfg : Config) (random : Option BridgeId)
    (events : List Event) : Founded (Session.run lands (powerOn lands cfg random) events) :=
  (Founded.boot (all_blank Written) cfg random).run events

/-! A read-only session that has loaded an index is sound as well. -/

/-- What `begin` leaves in RAM is sound, unless it loaded nothing. -/
theorem sound_boot {flash : Fake UInt32} (hflash : Authored flash.records) (cfg : Config)
    (random : Option BridgeId) : (Session.boot lands cfg random flash).store.Sound ∨
      ∃ cfg' fault, (Session.boot lands cfg random flash).store = unloaded cfg' fault := by
  cases hload : (faulty lands).load cfg.headerKey StoredHeader.codec.width flash with
  | none =>
    have hboot := boot_of_no_header cfg (faulty lands) flash random hload
    rw [show (Session.boot lands cfg random flash).store = _ from
      congrArg (fun out => out.2.1) hboot]
    exact Or.inl (mint_sound cfg random)
  | some header =>
    have hboot := boot_of_header cfg (faulty lands) flash random hload
    rw [show (Session.boot lands cfg random flash).store = _ from
      congrArg (fun out => out.2.1) hboot]
    rcases readHeader_cases (fun key len => (faulty lands).load key len flash) cfg header with
      ⟨fault, hout⟩ | ⟨m, raw, ro, fault, -, hraw, -, hout⟩
    · exact Or.inr ⟨cfg, fault, hout⟩
    · obtain ⟨hget, hlen⟩ := Records.load_eq_some.mp
        (show flash.records.load cfg.indexKey (indexBytesFor m) = some raw from hraw)
      obtain ⟨t, ht, rfl⟩ := (hflash _ _ hget).index_of_length hlen
      obtain rfl := indexBytesFor_inj ((length_indexRecord t).symm.trans hlen)
      have hreload : Reloads flash.records t
          (decoded flash.records.load cfg t.config.maxCommands t.indexRecord) :=
        reloads_decoded ht.toWellFormed
      have hdecoded := hreload.sound ht
      rw [hout]
      exact Or.inl { hdecoded with }

/-- **Every store a run leads to is sound**, writable or not, unless it loaded nothing. -/
theorem sound_or_unloaded (lands : Nat → Bool) (cfg : Config) (random : Option BridgeId)
    (events : List Event) :
    let s := (Session.run lands (powerOn lands cfg random) events).store
    s.Sound ∨ ∃ cfg' fault, s = unloaded cfg' fault := by
  have hstart : Founded (Session.boot lands cfg random blank) :=
    Founded.boot (all_blank Written) cfg random
  have hsound : (Session.boot lands cfg random blank).store.Sound ∨
      ∃ cfg' fault, (Session.boot lands cfg random blank).store = unloaded cfg' fault :=
    sound_boot (all_blank Written) cfg random
  show (Session.run lands (Session.boot lands cfg random blank) events).store.Sound ∨ ∃ cfg' fault,
    (Session.run lands (Session.boot lands cfg random blank) events).store = unloaded cfg' fault
  generalize Session.boot lands cfg random blank = x at hstart hsound
  induction events generalizing x with
  | nil => exact hsound
  | cons e events ih =>
    cases e with
    | reboot cfg random =>
      exact ih _ (Founded.boot hstart.flash cfg random) (sound_boot hstart.flash cfg random)
    | op op =>
      refine ih _ (hstart.op op) ?_
      cases hplan : op.plan x.store with
      | stop result =>
        rw [step_of_stop lands hplan]
        exact hsound
      | write payload next undone =>
        obtain ⟨hnext, -, -⟩ := op_next hstart.ram hplan
        have hundone : undone.Sound := by
          rcases op_change hstart.ram hplan with ⟨hw, -, rfl⟩ | ⟨random, -, -, -, rfl⟩
          · exact hstart.ram hw
          · exact resetStore_sound x.store random
        rcases step_cases lands hplan with ⟨-, hstore, -⟩ | ⟨-, hstore, -⟩
        · rw [hstore]
          exact Or.inl hnext
        · rw [hstore]
          exact Or.inl hundone

end Founded

end Session

end RfCloner
