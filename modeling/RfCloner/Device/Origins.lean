/-
  Where a transmission comes from.

  What a device sends was given to it by a `put` or an `import_command`, however often it has been
  rebooted since, under whatever configurations, and whatever saves have failed.  A waveform and the
  parameters it is sent with lie in different records, so a relearn that fails between the two leaves
  the new waveform beside the old parameters.  What a later boot takes for a command are then two
  commands of as many pulses, whose waveforms have one CRC (`sent_was_given`).

  `Recorded` says this of a record and `Given` of a command in RAM.  A record is read at the length of
  its kind, so no header or index is ever taken for a waveform.
-/
import RfCloner.Device.Replay
import RfCloner.Store.Rollback

namespace RfCloner

open CommandStore StorageBackend FixedCodec

/-! ## What is given -/

/-- The command an operation brings to the device. -/
def Op.gives : Op → Option Command
  | .put command => some command
  | .importCommand command => some command
  | _ => none

/-- The command an event brings to the device. -/
def Event.gives : Event → Option Command
  | .op operation => operation.gives
  | .reboot _ _ => none

/-- Two commands that are sent with the same parameters. -/
structure Command.SameParameters (c p : Command) : Prop where
  gapUs : c.gapUs = p.gapUs
  repeatTimes : c.repeatTimes = p.repeatTimes
  frequencyHz : c.frequencyHz = p.frequencyHz
  modulation : c.modulation = p.modulation

/-- A command with the waveform of one that was given and the parameters of one that was given, of as
    many pulses and the same CRC. -/
def Given (given : List Command) (c : Command) : Prop :=
  ∃ g ∈ given, ∃ p ∈ given, c.timings = g.timings ∧ c.SameParameters p ∧
    p.timings.length = g.timings.length ∧ timingsCrc p.timings = timingsCrc g.timings

section Given

variable {given more : List Command} {c d : Command}

theorem Given.mono (h : Given given c) (hsub : given ⊆ more) : Given more c := by
  obtain ⟨g, hg, p, hp, hgiven⟩ := h
  exact ⟨g, hsub hg, p, hsub hp, hgiven⟩

theorem Given.self (h : c ∈ given) (id : UInt32) : Given given { c with commandId := id } :=
  ⟨c, h, c, h, rfl, ⟨rfl, rfl, rfl, rfl⟩, rfl, rfl⟩

/-- It is the waveform and the parameters that matter. -/
theorem Given.congr (h : Given given c) (htimings : d.timings = c.timings) (hsame : d.SameParameters c) :
    Given given d := by
  obtain ⟨g, hg, p, hp, hwave, hparameters, hmatch⟩ := h
  exact ⟨g, hg, p, hp, htimings.trans hwave, ⟨hsame.gapUs.trans hparameters.gapUs,
    hsame.repeatTimes.trans hparameters.repeatTimes, hsame.frequencyHz.trans hparameters.frequencyHz,
    hsame.modulation.trans hparameters.modulation⟩, hmatch⟩

/-- Another waveform of as many pulses and the same CRC can take its place. -/
theorem Given.swap (h : Given given c) {g : Command} (hg : g ∈ given)
    (hlen : g.timings.length = c.timings.length) (hcrc : timingsCrc g.timings = timingsCrc c.timings) :
    Given given { c with timings := g.timings } := by
  obtain ⟨g', -, p, hp, hwave, hparameters, hlen', hcrc'⟩ := h
  refine ⟨g, hg, p, hp, rfl, ⟨hparameters.gapUs, hparameters.repeatTimes, hparameters.frequencyHz,
    hparameters.modulation⟩, ?_, ?_⟩
  · rw [hlen, hwave, hlen']
  · rw [hcrc, hwave, hcrc']

end Given

namespace CommandStore

/-! ## What an operation leaves -/

variable {s next undone : CommandStore} {given : List Command}

/-- The commands of a store are given. -/
def AllGiven (given : List Command) (s : CommandStore) : Prop :=
  ∀ i, (s.slot i).occupied = true → Given given (s.slot i)

theorem AllGiven.set (h : AllGiven given s) {i : Nat} {c : Command}
    (hslots : next.slots = s.slots.set i c) (hc : c.occupied = true → Given given c) :
    AllGiven given next := by
  intro k hocc
  by_cases hi : i < s.slots.length
  · rw [slot_of_set hslots hi] at hocc ⊢
    split_ifs at hocc ⊢
    · exact hc hocc
    · exact h k hocc
  · rw [List.set_eq_of_length_le (Nat.le_of_not_lt hi)] at hslots
    have hslot : next.slot k = s.slot k := by rw [slot, hslots, slot]
    rw [hslot] at hocc ⊢
    exact h k hocc

theorem AllGiven.of_empty {n : Nat} (hslots : next.slots = List.replicate n {}) :
    AllGiven given next := by
  intro k hocc
  rw [slot_of_replicate hslots] at hocc
  cases hocc

/-- **A command in RAM was there before, under this name or another, or the operation has brought it.** -/
theorem AllGiven.write {op : Op} {payload : Option Nat} (hs : AllGiven given s)
    (hop : ∀ c, op.gives = some c → c ∈ given) (h : op.plan s = .write payload next undone) :
    AllGiven given next := by
  cases op with
  | put c =>
    obtain ⟨-, -, -, -, slot, overwriting, id, rev, -, -, -, -, rfl, -⟩ := putPlan_eq_write h
    exact hs.set rfl fun _ => Given.self (hop c rfl) id
  | rename id name =>
    obtain ⟨-, -, slot, rev, hslot, -, -, -, rfl, -⟩ := renamePlan_eq_write h
    exact hs.set rfl fun hocc => (hs slot hocc).congr rfl ⟨rfl, rfl, rfl, rfl⟩
  | remove name =>
    obtain ⟨slot, -, h⟩ := removePlan_eq_write h
    obtain ⟨-, slot, rev, -, -, -, rfl, -⟩ := removeByIdPlan_eq_write h
    exact hs.set rfl fun hocc => by cases hocc
  | removeById id =>
    obtain ⟨-, slot, rev, -, -, -, rfl, -⟩ := removeByIdPlan_eq_write h
    exact hs.set rfl fun hocc => by cases hocc
  | clearAll =>
    obtain ⟨-, -, rev, -, -, rfl, -⟩ := clearAllPlan_eq_write h
    exact AllGiven.of_empty rfl
  | factoryReset random =>
    obtain ⟨-, -, rfl, -⟩ := factoryResetPlan_eq_write h
    exact AllGiven.of_empty rfl
  | restoreBegin bridgeId id =>
    obtain ⟨-, -, -, -, rev, -, -, rfl, -⟩ := restoreBeginPlan_eq_write h
    exact hs
  | importCommand c =>
    obtain ⟨-, -, -, -, -, -, -, slot, rev, -, -, -, -, rfl, -⟩ := importCommandPlan_eq_write h
    exact hs.set rfl fun _ => Given.self (hop c rfl) c.commandId
  | restoreCommit source =>
    obtain ⟨-, -, -, rev, -, -, rfl, -⟩ := restoreCommitPlan_eq_write h
    exact hs

/-- The waveform that is written with it has been given. -/
theorem waveform_of_write {op : Op} {i : Nat} (hop : ∀ c, op.gives = some c → c ∈ given)
    (h : op.plan s = .write (some i) next undone) : ∃ g ∈ given, (next.slot i).timings = g.timings := by
  have hsaves := savesPayload_of_write h
  cases op with
  | put c =>
    obtain ⟨-, -, -, -, slot, overwriting, id, rev, hslot, -, -, hpayload, rfl, -⟩ :=
      putPlan_eq_write h
    obtain rfl := Option.some.inj hpayload
    have hlt : i < s.slots.length := by
      rcases putSlot_eq_ok hslot with ⟨-, hfind, -⟩ | ⟨-, -, hfree, -, -⟩
      · exact lt_of_slot_occupied (findSlot_eq_some hfind).1
      · exact (findFreeSlot_eq_some hfree).1
    refine ⟨c, hop c rfl, ?_⟩
    rw [slot_of_set rfl hlt, if_pos rfl]
  | importCommand c =>
    obtain ⟨-, -, -, -, -, -, -, slot, rev, hfree, -, -, hpayload, rfl, -⟩ :=
      importCommandPlan_eq_write h
    obtain rfl := Option.some.inj hpayload
    refine ⟨c, hop c rfl, ?_⟩
    rw [slot_of_set rfl (findFreeSlot_eq_some hfree).1, if_pos rfl]
  | rename | remove | removeById | clearAll | factoryReset | restoreBegin | restoreCommit =>
    cases hsaves

/-! ## What a record holds -/

/-- A record that holds nothing but what has been given. -/
inductive Recorded (given : List Command) : Bytes → Prop where
  | header (cfg : Config) : Recorded given (headerRecord cfg)
  | index {t : CommandStore} (ht : t.Sound) (hgiven : AllGiven given t) : Recorded given t.indexRecord
  | payload {g : Command} (hg : g ∈ given) : Recorded given (timingsBytes g.timings)

section Recorded

variable {more : List Command} {d : Bytes} {r : Records UInt32}

theorem Recorded.written (h : Recorded given d) : Written d := by
  cases h with
  | header cfg => exact .header cfg
  | index ht => exact .index ht
  | @payload g => exact .payload g.timings

theorem Recorded.mono (h : Recorded given d) (hsub : given ⊆ more) : Recorded more d := by
  cases h with
  | header cfg => exact .header cfg
  | index ht hgiven => exact .index ht fun i hocc => (hgiven i hocc).mono hsub
  | payload hg => exact .payload (hsub hg)

/-- A record of the length of an index is the index of a store whose commands are given. -/
theorem Recorded.index_of_length (h : Recorded given d) {m : UInt8} (hlen : d.length = indexBytesFor m) :
    ∃ t : CommandStore, t.Sound ∧ AllGiven given t ∧ d = t.indexRecord := by
  rw [indexBytesFor_eq] at hlen
  cases h with
  | header cfg =>
    rw [length_headerRecord, width_header] at hlen
    omega
  | @index t ht hgiven => exact ⟨t, ht, hgiven, rfl⟩
  | @payload g =>
    rw [length_timingsBytes] at hlen
    omega

/-- A record of four bytes for each pulse is a waveform that was given. -/
theorem Recorded.payload_of_timings {timings : List Int32} (h : Recorded given (timingsBytes timings)) :
    ∃ g ∈ given, g.timings = timings := by
  generalize hd : timingsBytes timings = d at h
  have hlen : d.length = timings.length * 4 := by rw [← hd, length_timingsBytes]
  cases h with
  | header cfg =>
    rw [length_headerRecord, width_header] at hlen
    omega
  | @index t ht =>
    rw [length_indexRecord, indexBytesFor_eq] at hlen
    omega
  | @payload g hg => exact ⟨g, hg, (timingsBytes_inj hd).symm⟩

end Recorded

/-! ## What a boot loads -/

/-- What a slot loads passes the CRC of its index. -/
theorem crc_of_loaded {r : Records UInt32} {cfg : Config} {i : Nat} {stored : StoredSlot} {c : Command}
    (h : slotOutcome r.load cfg i stored = .loaded c) : timingsCrc c.timings = stored.payloadCrc16 := by
  unfold slotOutcome at h
  split at h
  · cases h
  split at h
  · cases h
  split at h
  · cases h
  · rename_i timings hwave
    obtain rfl := SlotOutcome.loaded.inj h
    unfold StoredSlot.waveform at hwave
    split at hwave
    · cases hwave
    · split at hwave
      · cases hwave
      · rename_i hcrc
        obtain rfl := Option.some.inj hwave
        exact not_not.mp hcrc

/-- So it has the CRC of the command that was indexed. -/
theorem crc_of_decoded {r : Records UInt32} {cfg : Config} {t : CommandStore} {i : Nat}
    (hocc : ((decoded r.load cfg t.config.maxCommands t.indexRecord).slot i).occupied = true)
    (htocc : (t.slot i).occupied = true) :
    timingsCrc ((decoded r.load cfg t.config.maxCommands t.indexRecord).slot i).timings
      = timingsCrc (t.slot i).timings := by
  have hslot : (decoded r.load cfg t.config.maxCommands t.indexRecord).slot i
      = if i < cfg.maxCommands.toNat ∧ i < t.config.maxCommands.toNat
        then (outcomeAt r.load t.indexRecord cfg i).command else {} := getD_readSlots ..
  by_cases hi : i < cfg.maxCommands.toNat ∧ i < t.config.maxCommands.toNat
  · rw [if_pos hi, outcomeAt, storedSlotAt_indexRecord t hi.2] at hslot
    rw [hslot] at hocc ⊢
    cases hout : slotOutcome r.load cfg i (StoredSlot.ofCommand (t.slot i)) with
    | loaded c =>
      rw [show (SlotOutcome.loaded c).command = c from rfl, crc_of_loaded hout, StoredSlot.ofCommand,
        if_pos htocc]
    | free | unfittable | faulty =>
      rw [hout] at hocc
      cases hocc
  · rw [hslot, if_neg hi] at hocc
    cases hocc

/-- **What is loaded from records that were given is given.** -/
theorem AllGiven.loaded (cfg : Config) {r : Records UInt32} {t : CommandStore} (ht : t.Sound)
    (hgiven : AllGiven given t) (hr : Records.All (Recorded given) r) :
    AllGiven given (decoded r.load cfg t.config.maxCommands t.indexRecord) := by
  intro i hocc
  have hreloads : Reloads r t (decoded r.load cfg t.config.maxCommands t.indexRecord) :=
    reloads_decoded ht.toWellFormed
  obtain ⟨htocc, hslot, hlen, -, hrecord⟩ := hreloads.slot_of_occupied hocc
  obtain ⟨g, hg, htimings⟩ := (hr _ _ hrecord).payload_of_timings
  have hcrc := crc_of_decoded hocc htocc
  rw [hslot, ← htimings]
  rw [← htimings] at hlen hcrc
  exact (hgiven i htocc).swap hg hlen hcrc

end CommandStore

/-! ## Every run -/

namespace Session

/-- A device that holds nothing but what has been given, in RAM and on flash. -/
structure Descended (given : List Command) (x : Session) : Prop extends Founded x where
  held : AllGiven given x.store
  recorded : Records.All (Recorded given) x.flash.records

section Descended

variable {lands : Nat → Bool} {given more : List Command} {x : Session}

theorem Descended.mono (h : Descended given x) (hsub : given ⊆ more) : Descended more x :=
  { h with
    held := fun i hocc => (h.held i hocc).mono hsub
    recorded := fun key d hd => (h.recorded key d hd).mono hsub }

theorem recorded_apply {r : Records UInt32} {t : CommandStore} (payload : Option Nat) (n : Nat)
    (hr : Records.All (Recorded given) r) (ht : t.Sound) (hgiven : AllGiven given t)
    (hpayload : ∀ i, payload = some i → ∃ g ∈ given, (t.slot i).timings = g.timings) :
    Records.All (Recorded given) (r.apply ((t.records payload).take n)) := by
  refine Records.All.apply (fun w hw => ?_) hr
  rcases List.mem_append.mp (List.mem_of_mem_take hw) with hpay | hindex
  · obtain ⟨i, hi, rfl⟩ := Option.map_eq_some_iff.mp (Option.mem_toList.mp hpay)
    obtain ⟨g, hg, htimings⟩ := hpayload i hi
    show Recorded given (timingsBytes (t.slot i).timings)
    rw [htimings]
    exact .payload hg
  · rcases List.mem_cons.mp hindex with rfl | hheader
    · exact .index ht hgiven
    · rw [List.mem_singleton.mp hheader]
      exact .header _

/-- A reboot brings nothing new. -/
theorem Descended.boot {flash : Fake UInt32} (hflash : Records.All (Recorded given) flash.records)
    (cfg : Config) (random : Option BridgeId) : Descended given (boot lands cfg random flash) := by
  have hfounded : Founded (Session.boot lands cfg random flash) :=
    Founded.boot (fun key d hd => (hflash key d hd).written) cfg random
  cases hload : (faulty lands).load cfg.headerKey StoredHeader.codec.width flash with
  | none =>
    have hboot := boot_of_no_header cfg (faulty lands) flash random hload
    obtain ⟨n, -, hrec, -⟩ :=
      saveAll_faulty lands ((configure cfg).mintIdentity random).indexRecords flash
    rw [← writeIndex_eq_saveAll] at hrec
    have hempty : AllGiven given ((configure cfg).mintIdentity random) := AllGiven.of_empty rfl
    have hstore : (Session.boot lands cfg random flash).store
        = (configure cfg).mintIdentity random := congrArg (fun out => out.2.1) hboot
    have hwritten : (Session.boot lands cfg random flash).flash.records
        = flash.records.apply (((configure cfg).mintIdentity random).indexRecords.take n) :=
      (congrArg (fun out => out.2.2.records) hboot).trans hrec
    refine { hfounded with held := hstore ▸ hempty, recorded := ?_ }
    rw [hwritten]
    exact recorded_apply none n hflash (mint_sound cfg random) hempty fun i hi => by cases hi
  | some header =>
    have hboot := boot_of_header cfg (faulty lands) flash random hload
    have hsame : (Session.boot lands cfg random flash).flash = flash :=
      congrArg (fun out => out.2.2) hboot
    have hstore := congrArg (fun out => out.2.1) hboot
    refine { hfounded with held := ?_, recorded := by rw [hsame]; exact hflash }
    rcases readHeader_cases (fun key len => (faulty lands).load key len flash) cfg header with
      ⟨fault, hout⟩ | ⟨m, raw, ro, fault, -, hraw, -, hout⟩
    · exact AllGiven.of_empty (n := cfg.maxCommands.toNat)
        (congrArg CommandStore.slots (hstore.trans hout))
    · obtain ⟨hget, hlen⟩ := Records.load_eq_some.mp
        (show flash.records.load cfg.indexKey (indexBytesFor m) = some raw from hraw)
      obtain ⟨t, ht, hgiven, rfl⟩ := (hflash _ _ hget).index_of_length hlen
      obtain rfl := indexBytesFor_inj ((length_indexRecord t).symm.trans hlen)
      have hloaded := AllGiven.loaded cfg ht hgiven hflash
      intro i
      rw [CommandStore.slot, show (Session.boot lands cfg random flash).store = _ from hstore.trans hout]
      exact hloaded i

/-- **One event**: an operation brings at most its own command. -/
theorem Descended.step (h : Descended given x) {e : Event} (he : ∀ c, e.gives = some c → c ∈ given) :
    Descended given (step lands x e) := by
  cases e with
  | reboot cfg random => exact Descended.boot h.recorded cfg random
  | op op =>
    have hfounded : Founded (Session.step lands x (.op op)) := h.toFounded.op op
    cases hplan : op.plan x.store with
    | stop result =>
      rw [step_of_stop lands hplan]
      exact h
    | write payload next undone =>
      obtain ⟨hnext, -, -⟩ := op_next h.ram hplan
      have hheld := h.held.write he hplan
      have hpayload : ∀ i, payload = some i → ∃ g ∈ given, (next.slot i).timings = g.timings := by
        rintro i rfl
        exact waveform_of_write he hplan
      have hundone : AllGiven given undone := by
        rcases op_change h.ram hplan with ⟨-, -, rfl⟩ | ⟨random, -, -, -, rfl⟩
        · exact h.held
        · exact AllGiven.of_empty (n := x.store.config.maxCommands.toNat) rfl
      rcases step_cases lands hplan with ⟨-, hstore, hrec⟩ | ⟨-, hstore, n, -, hrec, -⟩
      · refine { hfounded with held := hstore ▸ hheld, recorded := ?_ }
        rw [hrec, ← List.take_length (l := next.records payload)]
        exact recorded_apply _ _ h.recorded hnext hheld hpayload
      · refine { hfounded with held := hstore ▸ hundone, recorded := ?_ }
        rw [hrec]
        exact recorded_apply _ n h.recorded hnext hheld hpayload

/-- **Every run.**  Induction on the events. -/
theorem Descended.run (h : Descended given x) {events : List Event}
    (hevents : ∀ e ∈ events, ∀ c, e.gives = some c → c ∈ given) :
    Descended given (run lands x events) := by
  induction events generalizing x with
  | nil => exact h
  | cons e events ih =>
    exact ih (h.step (hevents e List.mem_cons_self))
      fun e he => hevents e (List.mem_cons_of_mem _ he)

end Descended

/-- A command that is found is in a slot. -/
theorem given_of_found {given : List Command} {s : CommandStore} (h : AllGiven given s)
    {command : Command} (hfound : (∃ name, s.get name = some command) ∨
      ∃ id, s.getById id = some command) : Given given command := by
  rcases hfound with ⟨name, hget⟩ | ⟨id, hget⟩
  · obtain ⟨i, hfind, rfl⟩ := Option.map_eq_some_iff.mp hget
    exact h i (findSlot_eq_some hfind).1
  · obtain ⟨i, hfind, rfl⟩ := Option.map_eq_some_iff.mp hget
    exact h i (findSlotById_eq_some hfind).1

/-- **What is sent was given.**  In every run of operations and reboots, whatever saves fail and
    however the configuration changes: a transmission has the waveform of a command that a `put` or an
    `import_command` of the run was given, and the repeats and gap that were asked for or else those of
    such a command, which has as many pulses and the same CRC. -/
theorem sent_was_given (lands : Nat → Bool) (cfg : Config) (random : Option BridgeId)
    (events : List Event) {c : Cloner}
    (hc : c.store = (run lands (powerOn lands cfg random) events).store) {transmitter : Bool}
    {overrides : Overrides} {t : Transmission}
    (hsent : (∃ name, .perform t ∈ (c.send transmitter name overrides).2.2) ∨
      ∃ id, .perform t ∈ (c.sendById transmitter id overrides).2.2) :
    let given := events.filterMap Event.gives
    ∃ g ∈ given, ∃ p ∈ given, t = { p.transmission overrides with data := g.timings } ∧
      p.timings.length = g.timings.length ∧ timingsCrc p.timings = timingsCrc g.timings := by
  intro given
  have hstart : Descended given (powerOn lands cfg random) :=
    Descended.boot (all_blank (Recorded given)) cfg random
  have hrun : Descended given (run lands (powerOn lands cfg random) events) :=
    hstart.run fun e he c hgives => List.mem_filterMap.mpr ⟨e, he, hgives⟩
  obtain ⟨command, hfound, rfl⟩ : ∃ command, ((∃ name, c.store.get name = some command) ∨
      ∃ id, c.store.getById id = some command) ∧ t = command.transmission overrides := by
    rcases hsent with ⟨name, hsent⟩ | ⟨id, hsent⟩
    · obtain ⟨command, hget, rfl⟩ := Cloner.perform_mem_send hsent
      exact ⟨command, .inl ⟨name, hget⟩, rfl⟩
    · obtain ⟨command, hget, rfl⟩ := Cloner.perform_mem_sendById hsent
      exact ⟨command, .inr ⟨id, hget⟩, rfl⟩
  rw [hc] at hfound
  obtain ⟨g, hg, p, hp, hwave, hsame, hmatch⟩ := given_of_found hrun.held hfound
  refine ⟨g, hg, p, hp, ?_, hmatch⟩
  simp only [Command.transmission, hwave, hsame.repeatTimes, hsame.gapUs]

/-- A command is learned, and learned again with another gap. -/
def regapped : List Event :=
  [.op (.put { name := ascii "on", timings := [350, -1050], gapUs := 9000 }),
    .op (.put { name := ascii "on", timings := [350, -1050], gapUs := 7000 })]

/-- The relearn fails at its index, and the gap that is sent is the one given before. -/
theorem sent_was_given_relearned : ∃ g ∈ regapped.filterMap Event.gives,
    ∃ p ∈ regapped.filterMap Event.gives,
      (⟨0, [350, -1050], 1, 9000⟩ : Transmission) = { p.transmission {} with data := g.timings } := by
  have hsent : Sent.perform ⟨0, [350, -1050], 1, 9000⟩ ∈ (Cloner.sendById true 1 {}
      ⟨(run (fun n => n ≠ 6) (powerOn (fun n => n ≠ 6) ⟨2, 4, 200, 7⟩ none) regapped).store, []⟩).2.2 := by
    decide +kernel
  obtain ⟨g, hg, p, hp, heq, -⟩ :=
    sent_was_given (fun n => n ≠ 6) ⟨2, 4, 200, 7⟩ none regapped rfl (.inr ⟨1, hsent⟩)
  exact ⟨g, hg, p, hp, heq⟩

end Session

end RfCloner
