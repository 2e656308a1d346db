/-
  The slot array of the store as a table of slots.

  `find_slot_`, `find_slot_by_id_` and `find_free_slot_` are scans of `SlotTable`, and `used_bytes`
  and `projected_bytes_` are totals over it.  The byte counts are machine words in the source; with
  at most 255 slots of at most 65535 timings they never wrap, which is what lets a budget be
  reasoned about in ℕ.
-/
import RfCloner.Store.Writes

namespace RfCloner

open FixedCodec

/-- The bytes a command's waveform takes. -/
def Command.payloadBytes (c : Command) : Nat := c.timings.length * 4

namespace CommandStore

variable {s t : CommandStore} {i k : Nat} {c : Command}

/-! ## Scans -/

theorem slot_of_set (h : t.slots = s.slots.set i c) (hi : i < s.slots.length) (k : Nat) :
    t.slot k = if k = i then c else s.slot k := by
  rw [slot, h]
  exact SlotTable.get_set hi c k

theorem slot_of_replicate {n : Nat} (h : t.slots = List.replicate n {}) (k : Nat) :
    t.slot k = {} := by
  rw [slot, h]
  exact SlotTable.get_replicate n k

theorem findSlot_eq_some {name : Bytes} (h : s.findSlot name = some i) :
    (s.slot i).occupied = true ∧ (s.slot i).name = name :=
  SlotTable.findKey_eq_some h

theorem findSlot_eq_none {name : Bytes} :
    s.findSlot name = none ↔ ∀ i, (s.slot i).occupied = true → (s.slot i).name ≠ name :=
  SlotTable.findKey_eq_none

/-- In a well-formed store a command is found under its name. -/
theorem WellFormed.findSlot_name (hwf : s.WellFormed) (hocc : (s.slot i).occupied = true) :
    s.findSlot (s.slot i).name = some i :=
  SlotTable.Distinct.findKey_eq hwf.names_nodup hocc

theorem findSlotById_eq (id : UInt32) :
    s.findSlotById id = SlotTable.findKey Command.commandId id s.slots := by
  rw [findSlotById]
  by_cases hid : id = commandIdNone
  · rw [if_pos hid, eq_comm, SlotTable.findKey_eq_none]
    intro i hocc hkey
    exact Command.occupied_iff.mp hocc (hkey.trans hid)
  · rw [if_neg hid, SlotTable.findKey]
    congr 1
    funext c
    by_cases hc : c.commandId = id
    · have hocc : c.occupied = true := Command.occupied_iff.mpr (hc ▸ hid)
      rw [beq_iff_eq.mpr hc, Bool.and_true]
      exact hocc.symm
    · rw [beq_eq_false_iff_ne.mpr hc, Bool.and_false]

theorem findSlotById_eq_some {id : UInt32} (h : s.findSlotById id = some i) :
    (s.slot i).occupied = true ∧ (s.slot i).commandId = id :=
  SlotTable.findKey_eq_some ((findSlotById_eq id).symm.trans h)

theorem findSlotById_eq_none {id : UInt32} :
    s.findSlotById id = none ↔ ∀ i, (s.slot i).occupied = true → (s.slot i).commandId ≠ id := by
  rw [findSlotById_eq]
  exact SlotTable.findKey_eq_none

/-- In a well-formed store a command is found under its id. -/
theorem WellFormed.findSlotById_id (hwf : s.WellFormed) (hocc : (s.slot i).occupied = true) :
    s.findSlotById (s.slot i).commandId = some i :=
  (findSlotById_eq _).trans (SlotTable.Distinct.findKey_eq hwf.ids_nodup hocc)

theorem findFreeSlot_eq : s.findFreeSlot = SlotTable.findFree s.slots := by
  rw [findFreeSlot, SlotTable.findFree]
  congr 1
  funext c
  show (c.commandId == commandIdNone) = !(c.commandId != commandIdNone)
  rw [bne, Bool.not_not]

theorem findFreeSlot_eq_some (h : s.findFreeSlot = some i) :
    i < s.slots.length ∧ (s.slot i).occupied = false :=
  SlotTable.findFree_eq_some (findFreeSlot_eq.symm.trans h)

theorem hasId_eq_false {id : UInt32} :
    s.hasId id = false ↔ ∀ i, (s.slot i).occupied = true → (s.slot i).commandId ≠ id := by
  rw [hasId, Option.isSome_eq_false_iff, Option.isNone_iff_eq_none, findSlotById_eq_none]

theorem has_eq_false {name : Bytes} :
    s.has name = false ↔ ∀ i, (s.slot i).occupied = true → (s.slot i).name ≠ name := by
  rw [has, Option.isSome_eq_false_iff, Option.isNone_iff_eq_none, findSlot_eq_none]

theorem count_eq : s.count = s.commands.length := by
  rw [count, List.countP_eq_length_filter]
  rfl

/-! ## Byte counts -/

/-- The bytes of all waveforms in RAM. -/
def payloadTotal (s : CommandStore) : Nat := SlotTable.total Command.payloadBytes s.slots

/-- The overhead of the header and the index. -/
def overhead (cfg : Config) : Nat := StoredHeader.codec.width + indexBytesFor cfg.maxCommands

theorem overhead_lt (cfg : Config) : overhead cfg < 2 ^ 16 := by
  have hm : cfg.maxCommands.toNat < 256 := cfg.maxCommands.toNat_lt
  rw [overhead, indexBytesFor_eq, width_header]
  omega

theorem toNat_indexOverheadBytes (cfg : Config) :
    (indexOverheadBytes cfg.maxCommands).toNat = overhead cfg := by
  have h := overhead_lt cfg
  show (UInt32.ofNat (overhead cfg)).toNat = _
  rw [UInt32.toNat_ofNat', Nat.mod_eq_of_lt (by omega)]

/-- What one slot adds to a byte count. -/
theorem weight_payloadBytes (c : Command) :
    SlotTable.weight Command.payloadBytes c = if c.occupied then c.timings.length * 4 else 0 := rfl

theorem foldl_usedBytes (l : List Command) (a : UInt32) :
    l.foldl (fun total c =>
        if c.occupied then total + UInt32.ofNat (c.timings.length * 4) else total) a
      = a + UInt32.ofNat (SlotTable.total Command.payloadBytes l) := by
  rw [SlotTable.total_eq_weight]
  induction l generalizing a with
  | nil => exact (UInt32.add_zero a).symm
  | cons c l ih =>
    rw [List.foldl_cons, ih, List.map_cons, List.sum_cons, weight_payloadBytes]
    by_cases hocc : c.occupied = true
    · rw [if_pos hocc, if_pos hocc, UInt32.ofNat_add, UInt32.add_assoc]
    · rw [if_neg hocc, if_neg hocc, Nat.zero_add]

/-- The fold of `projected_bytes_` where the slot it skips is not met. -/
theorem foldl_projectedBytes_of_ne {skip : Option Nat} (l : List Command) (k : Nat)
    (h : ∀ i, k ≤ i → some i ≠ skip) (a : UInt32) :
    (l.zipIdx k).foldl (fun total (c, i) =>
        if some i = skip then total
        else if c.occupied then total + UInt32.ofNat (c.timings.length * 4) else total) a
      = a + UInt32.ofNat (SlotTable.total Command.payloadBytes l) := by
  rw [← foldl_usedBytes]
  induction l generalizing k a with
  | nil => rfl
  | cons c l ih =>
    rw [List.zipIdx_cons, List.foldl_cons, List.foldl_cons,
      ih (k + 1) fun i hi => h i (Nat.le_of_succ_le hi)]
    dsimp only
    rw [if_neg (h k (Nat.le_refl k))]

/-- The fold of `projected_bytes_` counts the slots as if the skipped one were free. -/
theorem foldl_projectedBytes (l : List Command) (r k : Nat) (a : UInt32) :
    (l.zipIdx k).foldl (fun total (c, i) =>
        if some i = some (k + r) then total
        else if c.occupied then total + UInt32.ofNat (c.timings.length * 4) else total) a
      = a + UInt32.ofNat (SlotTable.total Command.payloadBytes (l.set r {})) := by
  induction l generalizing r k a with
  | nil => exact (UInt32.add_zero a).symm
  | cons c l ih =>
    rw [List.zipIdx_cons, List.foldl_cons]
    cases r with
    | zero =>
      have hne : ∀ i, k + 1 ≤ i → some i ≠ some (k + 0) := by
        intro i hi h
        have := Option.some.inj h
        omega
      rw [foldl_projectedBytes_of_ne l (k + 1) hne]
      dsimp only
      rw [if_pos (by rw [Nat.add_zero])]
      rfl
    | succ r =>
      have hne : ¬ some k = some (k + (r + 1)) := by
        intro h
        have := Option.some.inj h
        omega
      have hshift : k + (r + 1) = (k + 1) + r := by omega
      rw [hshift, ih, List.set_cons_succ, SlotTable.total_eq_weight, SlotTable.total_eq_weight,
        List.map_cons, List.sum_cons, weight_payloadBytes]
      dsimp only
      rw [← hshift, if_neg hne]
      by_cases hocc : c.occupied = true
      · rw [if_pos hocc, if_pos hocc, UInt32.ofNat_add, UInt32.add_assoc]
      · rw [if_neg hocc, if_neg hocc, Nat.zero_add]

/-- A row of at most 255 slots whose waveforms fit their length field is small. -/
theorem total_payloadBytes_lt {l : List Command} (hlen : l.length < 256)
    (hlt : ∀ i, (SlotTable.get l i).occupied = true →
      (SlotTable.get l i).timings.length < 2 ^ 16) :
    SlotTable.total Command.payloadBytes l ≤ 255 * 262140 := by
  have hmul := SlotTable.total_le_mul l Command.payloadBytes 262140
    fun i hocc => by
      have := hlt i hocc
      rw [Command.payloadBytes]
      omega
  exact hmul.trans (Nat.mul_le_mul_right _ (by omega))

theorem WellFormed.length_lt (hwf : s.WellFormed) : s.slots.length < 256 := by
  have := s.config.maxCommands.toNat_lt
  rw [hwf.sized]
  exact this

/-- `used_bytes` in a well-formed store, without the machine word. -/
theorem WellFormed.usedBytes_toNat (hwf : s.WellFormed) :
    s.usedBytes.toNat = overhead s.config + s.payloadTotal := by
  have hsmall := total_payloadBytes_lt hwf.length_lt
    fun i hocc => hwf.timings_lt _ (slot_mem_commands hocc)
  have hover := overhead_lt s.config
  rw [usedBytes, foldl_usedBytes, UInt32.toNat_add, toNat_indexOverheadBytes,
    UInt32.toNat_ofNat', payloadTotal]
  rw [Nat.mod_eq_of_lt (show SlotTable.total Command.payloadBytes s.slots < 2 ^ 32 by omega)]
  exact Nat.mod_eq_of_lt (by omega)

/-- `projected_bytes_` is what `used_bytes` will be once the command is in its slot, whether it
    replaces the command there or takes a free slot. -/
theorem WellFormed.projectedBytes_toNat (hwf : s.WellFormed) {skip : Option Nat}
    (hi : i < s.slots.length) (hskip : skip = some i ∨ skip = none ∧ (s.slot i).occupied = false)
    (hc : c.occupied = true) (hlt : c.timings.length < 2 ^ 16) :
    (s.projectedBytes skip (UInt16.ofNat c.timings.length)).toNat
      = overhead s.config + SlotTable.total Command.payloadBytes (s.slots.set i c) := by
  have hset := SlotTable.total_set Command.payloadBytes hi c
  have hclear := SlotTable.total_set Command.payloadBytes hi ({} : Command)
  have hwc : SlotTable.weight Command.payloadBytes c = c.timings.length * 4 := if_pos hc
  have hw0 : SlotTable.weight Command.payloadBytes ({} : Command) = 0 := rfl
  have hold : SlotTable.total Command.payloadBytes s.slots ≤ 255 * 262140 :=
    total_payloadBytes_lt hwf.length_lt fun i hocc => hwf.timings_lt _ (slot_mem_commands hocc)
  have hover := overhead_lt s.config
  have hbase : ∃ base, (s.slots.zipIdx.foldl (fun total (c, i) =>
      if some i = skip then total
      else if c.occupied then total + UInt32.ofNat (c.timings.length * 4) else total)
      (indexOverheadBytes s.config.maxCommands)).toNat = overhead s.config + base ∧
      SlotTable.total Command.payloadBytes (s.slots.set i c) = base + c.timings.length * 4 ∧
      base ≤ 255 * 262140 := by
    rcases hskip with rfl | ⟨rfl, hfree⟩
    · refine ⟨SlotTable.total Command.payloadBytes (s.slots.set i {}), ?_, by omega, by omega⟩
      have hfold := foldl_projectedBytes s.slots i 0 (indexOverheadBytes s.config.maxCommands)
      rw [Nat.zero_add] at hfold
      rw [hfold, UInt32.toNat_add, toNat_indexOverheadBytes, UInt32.toNat_ofNat']
      omega
    · have hwi : SlotTable.weight Command.payloadBytes (SlotTable.get s.slots i) = 0 :=
        if_neg (Bool.eq_false_iff.mp hfree)
      refine ⟨SlotTable.total Command.payloadBytes s.slots, ?_, by omega, hold⟩
      rw [foldl_projectedBytes_of_ne s.slots 0 (fun i _ => Option.some_ne_none i), UInt32.toNat_add,
        toNat_indexOverheadBytes, UInt32.toNat_ofNat']
      omega
  obtain ⟨base, hfold, htotal, hle⟩ := hbase
  have hpulses : ((UInt16.ofNat c.timings.length).toUInt32 * 4).toNat = c.timings.length * 4 := by
    rw [UInt32.toNat_mul, UInt16.toNat_toUInt32, UInt16.toNat_ofNat', Nat.mod_eq_of_lt hlt]
    show c.timings.length * 4 % 2 ^ 32 = _
    omega
  rw [projectedBytes, UInt32.toNat_add, hfold, hpulses, htotal]
  omega

end CommandStore

end RfCloner
