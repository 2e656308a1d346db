/-
  What the storage budget bounds.

  `put` and `import_command` compare the budget with the header, the index and the waveforms of the
  stored commands.  The waveform of a removed command stays on flash until its slot is used again,
  and is not counted.  So the records of the commands that are stored never take more than
  `max_storage_bytes` (`live_within_budget`), and neither does any record beside the header and the
  index, while all records together can (`orphan_beyond_budget`).
-/
import RfCloner.Store.Revision

namespace RfCloner

open FixedCodec StorageBackend

namespace CommandStore

/-! ## The length of the records -/

/-- The bytes of one record, none if it is not there. -/
def recordBytes (r : Records UInt32) (key : UInt32) : Nat := ((r key).map List.length).getD 0

/-- The bytes of the header, the index and the payload records of the slots. -/
def recordsBytes (cfg : Config) (r : Records UInt32) (slots : List Nat) : Nat :=
  recordBytes r cfg.headerKey + recordBytes r cfg.indexKey
    + (slots.map fun i => recordBytes r (cfg.payloadKey (UInt8.ofNat i))).sum

section Lengths

variable {s : CommandStore} {r : Records UInt32} {i : Nat}

theorem recordBytes_of_eq {key : UInt32} {d : Bytes} (h : r key = some d) :
    recordBytes r key = d.length := by
  rw [recordBytes, h]
  rfl

/-- The header and the index are the overhead of the budget. -/
theorem Holds.overhead (h : Holds r s) (slots : List Nat) :
    recordsBytes s.config r slots = CommandStore.overhead s.config
      + (slots.map fun i => recordBytes r (s.config.payloadKey (UInt8.ofNat i))).sum := by
  rw [recordsBytes, recordBytes_of_eq h.header, recordBytes_of_eq h.index, length_headerRecord,
    length_indexRecord]
  rfl

/-- A waveform is not longer than all of them. -/
theorem Sound.waveform_le (hs : s.Sound) (i : Nat) : (s.slot i).timings.length * 4 ≤ s.payloadTotal := by
  cases hocc : (s.slot i).occupied with
  | false =>
    rw [hs.free i hocc]
    exact Nat.zero_le _
  | true =>
    have hset := SlotTable.total_set Command.payloadBytes (lt_of_slot_occupied hocc) {}
    have hweight : SlotTable.weight Command.payloadBytes (SlotTable.get s.slots i)
        = (s.slot i).timings.length * 4 := if_pos hocc
    have hfree : SlotTable.weight Command.payloadBytes ({} : Command) = 0 := rfl
    have htotal : s.payloadTotal = SlotTable.total Command.payloadBytes s.slots := rfl
    omega

/-- The waveforms of the occupied slots are those that the budget counts. -/
theorem Sound.sum_occupiedSlots (hs : s.Sound) :
    (s.occupiedSlots.map fun i => (s.slot i).timings.length * 4).sum = s.payloadTotal := by
  have hcontent := SlotTable.content_eq_range (l := s.slots) (n := s.config.maxCommands.toNat)
    (Nat.le_of_eq hs.sized)
  show _ = ((SlotTable.content s.slots).map Command.payloadBytes).sum
  rw [hcontent, List.filter_map, List.map_map]
  rfl

/-- **What is on flash for the commands that are stored is what `used_bytes` says.** -/
theorem Holds.live_eq (h : Holds r s) (hs : s.Sound) :
    recordsBytes s.config r s.occupiedSlots = s.usedBytes.toNat := by
  rw [h.overhead, hs.usedBytes_toNat, ← hs.sum_occupiedSlots]
  congr 2
  refine List.map_congr_left fun i hi => ?_
  have hocc : (s.slot i).occupied = true := (List.mem_filter.mp hi).2
  rw [recordBytes_of_eq (h.coherent i hocc), length_timingsBytes]

end Lengths

end CommandStore

/-! ## Runs -/

namespace Session

open CommandStore

/-- A settled device within its budget, none of whose payload records is too long for it alone. -/
structure Budgeted (cfg : Config) (x : Session) : Prop extends Settled cfg x where
  within : x.store.WithinBudget
  each : ∀ i : UInt8, overhead cfg + recordBytes x.flash.records (cfg.payloadKey i)
    ≤ cfg.maxStorageBytes.toNat

section Budgeted

variable {cfg : Config} {x : Session}

theorem Budgeted.powerOn (hover : overhead cfg ≤ cfg.maxStorageBytes.toNat) (random : Option BridgeId) :
    Budgeted cfg (powerOn (fun _ => true) cfg random) := by
  have hsettled := Settled.powerOn cfg random
  have hload : blank.records.load cfg.headerKey StoredHeader.codec.width = none := rfl
  have hheader : blank.records cfg.headerKey = none := rfl
  obtain ⟨hstore, -⟩ := boot_fresh (fun _ => true) hheader random
  refine ⟨hsettled, ?_, fun i => ?_⟩
  · show (Session.boot (fun _ => true) cfg random blank).store.WithinBudget
    rw [hstore]
    show overhead cfg + SlotTable.total Command.payloadBytes (List.replicate _ {}) ≤ _
    rw [total_replicate]
    exact hover
  · have hnone : (Session.powerOn (fun _ => true) cfg random).flash.records (cfg.payloadKey i)
        = none := by
      rw [Session.powerOn, records_boot_fresh hload]
      exact apply_indexRecords_payload (s := (configure cfg).mintIdentity random) i
    rw [recordBytes, hnone]
    exact hover

/-- What an operation writes is within the budget. -/
theorem Budgeted.within_next (h : Budgeted cfg x) (hover : overhead cfg ≤ cfg.maxStorageBytes.toNat)
    {op : Op} {payload : Option Nat} {next undone : CommandStore}
    (hplan : op.plan x.store = .write payload next undone) : next.WithinBudget := by
  rcases op_change (fun _ => h.sound) hplan with ⟨-, hchange, -⟩ | ⟨random, -, -, rfl, -⟩
  · exact hchange.withinBudget h.sound h.within
  · show overhead x.store.config + SlotTable.total Command.payloadBytes (List.replicate _ {}) ≤
      x.store.config.maxStorageBytes.toNat
    rw [total_replicate, h.config]
    exact hover

/-- **One operation.** -/
theorem Budgeted.op (h : Budgeted cfg x) (hpos : cfg.maxCommands ≠ 0)
    (hover : overhead cfg ≤ cfg.maxStorageBytes.toNat) (op : Op) :
    Budgeted cfg (step (fun _ => true) x (.op op)) := by
  cases hplan : op.plan x.store with
  | stop result =>
    rw [step_of_stop _ hplan]
    exact h
  | write payload next undone =>
    obtain ⟨-, hstore, hsettled⟩ := h.toSettled.write hpos hplan
    have hwithin := h.within_next hover hplan
    have hsound : next.Sound := (op_next (fun _ => h.sound) hplan).1
    have hconfig : next.config = cfg := by
      rw [← hstore]
      exact hsettled.config
    obtain ⟨-, -, hrec⟩ := (step_cases (fun _ => true) hplan).resolve_right
      fun ⟨_, _, n, _, _, _, hfail⟩ => Bool.noConfusion hfail
    refine ⟨hsettled, by rw [hstore]; exact hwithin, fun i => ?_⟩
    -- the index and the header do not touch the payloads
    have hpayload : (step (fun _ => true) x (.op op)).flash.records (cfg.payloadKey i)
        = x.flash.records.apply (payload.map next.payloadRecord).toList (cfg.payloadKey i) := by
      rw [hrec, CommandStore.records, Records.apply_append, ← hconfig]
      exact apply_indexRecords_payload i
    rw [recordBytes, hpayload]
    cases payload with
    | none => exact h.each i
    | some j =>
      show overhead cfg + ((x.flash.records.save (next.config.payloadKey (UInt8.ofNat j))
        (timingsBytes (next.slot j).timings) (cfg.payloadKey i)).map List.length).getD 0 ≤ _
      rw [hconfig]
      by_cases hkey : cfg.payloadKey i = cfg.payloadKey (UInt8.ofNat j)
      · rw [hkey, Records.save_self, Option.map_some, Option.getD_some, length_timingsBytes]
        have hle := hsound.waveform_le j
        have hbudget : overhead next.config + next.payloadTotal
          ≤ next.config.maxStorageBytes.toNat := hwithin
        rw [hconfig] at hbudget
        omega
      · rw [Records.save_of_ne hkey]
        exact h.each i

/-- **Every run.** -/
theorem Budgeted.run (h : Budgeted cfg x) (hpos : cfg.maxCommands ≠ 0)
    (hover : overhead cfg ≤ cfg.maxStorageBytes.toNat) {events : List Event}
    (hevents : ∀ e ∈ events, e.Under (· = cfg)) : Budgeted cfg (run (fun _ => true) x events) := by
  induction events generalizing x with
  | nil => exact h
  | cons e events ih =>
    refine ih ?_ fun e he => hevents e (List.mem_cons_of_mem _ he)
    have he := hevents e List.mem_cons_self
    cases e with
    | op op => exact h.op hpos hover op
    | reboot config random =>
      obtain rfl : config = cfg := he
      rw [h.toSettled.reboot hpos random]
      exact h

end Budgeted

/-- **The budget bounds the records of the stored commands.**  In every run of operations and
    reboots under one configuration whose empty index fits its budget, with succeeding saves: header,
    index and the waveforms of the stored commands take as many bytes on flash as `used_bytes` says,
    and no more than `max_storage_bytes`; and no payload record, orphaned or not, takes more beside
    the header and the index. -/
theorem live_within_budget {cfg : Config} (hpos : cfg.maxCommands ≠ 0)
    (hover : indexOverheadBytes cfg.maxCommands ≤ cfg.maxStorageBytes) (random : Option BridgeId)
    {events : List Event} (hevents : ∀ e ∈ events, e.Under (· = cfg)) :
    let x := run (fun _ => true) (powerOn (fun _ => true) cfg random) events
    let live := recordsBytes cfg x.flash.records x.store.occupiedSlots
    live = x.store.usedBytes.toNat ∧ live ≤ cfg.maxStorageBytes.toNat ∧
      ∀ i, recordsBytes cfg x.flash.records [i] ≤ cfg.maxStorageBytes.toNat := by
  intro x live
  have hover' : overhead cfg ≤ cfg.maxStorageBytes.toNat := by
    rw [← toNat_indexOverheadBytes]
    exact UInt32.le_iff_toNat_le.mp hover
  have h : Budgeted cfg x := (Budgeted.powerOn hover' random).run hpos hover' hevents
  have hlive : live = x.store.usedBytes.toNat := by
    show recordsBytes cfg x.flash.records x.store.occupiedSlots = _
    rw [← h.config]
    exact h.flash.live_eq h.sound
  refine ⟨hlive, ?_, fun i => ?_⟩
  · rw [hlive, h.sound.usedBytes_toNat, ← h.config]
    exact h.within
  · have hone := h.flash.overhead [i]
    rw [h.config, List.map_singleton, List.sum_singleton] at hone
    rw [hone]
    exact h.each (UInt8.ofNat i)

/-- A small command and a large one are learned, the large one is removed, and the small one is
    learned again with a waveform of the room that `used_bytes` has freed. -/
def relearnedLarger : List Event :=
  [.op (.put { name := ascii "a", timings := [350, -1050] }),
    .op (.put { name := ascii "b", timings := List.replicate 10 400 }),
    .op (.remove (ascii "b")),
    .op (.put { name := ascii "a", timings := List.replicate 12 500 })]

/-- The waveform of the removed command is still there, and the records take more than the budget. -/
theorem orphan_beyond_budget :
    let x := run (fun _ => true) (powerOn (fun _ => true) ⟨2, 16, 180, 7⟩ none) relearnedLarger
    x.store.usedBytes = 176 ∧
    recordsBytes ⟨2, 16, 180, 7⟩ x.flash.records (List.range 2) = 216 ∧
    ¬ recordsBytes ⟨2, 16, 180, 7⟩ x.flash.records (List.range 2) ≤ 180 := by
  intro x
  have htotal : recordsBytes ⟨2, 16, 180, 7⟩ x.flash.records (List.range 2) = 216 := by
    decide +kernel
  refine ⟨by decide +kernel, htotal, ?_⟩
  rw [htotal]
  decide

/-- In the same run the records of the one command that is stored are within it. -/
theorem live_within_budget_relearned :
    let x := run (fun _ => true) (powerOn (fun _ => true) ⟨2, 16, 180, 7⟩ none) relearnedLarger
    recordsBytes ⟨2, 16, 180, 7⟩ x.flash.records x.store.occupiedSlots ≤ 180 := by
  have hevents : ∀ e ∈ relearnedLarger, e.Under (· = (⟨2, 16, 180, 7⟩ : Config)) := by
    simp [relearnedLarger, Event.Under]
  exact (live_within_budget (by decide) (by decide) none hevents).2.1

end Session

end RfCloner
