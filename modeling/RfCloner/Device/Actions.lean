/-
  The integers of the actions.

  The actions deliver signed 32-bit integers, and the component takes 32, 16 and 8 bits without a
  sign.  C++ converts them on the way without a word, and what the store then checks is the converted
  value.  Only `restore_commit` looks at the sign first.  `boundary_exact_iff` says which calls
  store the number they were given, and `deliverable_run` which runs keep every number of the device
  within what an action can carry back.
-/
import RfCloner.Device.Lifecycle
import RfCloner.Store.Rollback
import RfCloner.Store.Revision
import RfCloner.Lib.Runs

namespace RfCloner

open CommandStore FixedCodec StorageBackend

/-! ## Conversions -/

/-- Without its sign, an argument is the number it is modulo 2^32. -/
theorem toNat_toUInt32 (arg : Int32) : (arg.toUInt32.toNat : Int) = arg.toInt % 2 ^ 32 := by
  have hint : arg.toInt = arg.toBitVec.toInt := rfl
  have hlt := arg.toBitVec.isLt
  have hcond := BitVec.toInt_eq_toNat_cond arg.toBitVec
  show (arg.toBitVec.toNat : Int) = _
  split at hcond <;> omega

theorem toInt_bounds (arg : Int32) : -2 ^ 31 ≤ arg.toInt ∧ arg.toInt < 2 ^ 31 :=
  ⟨arg.le_toInt, arg.toInt_lt⟩

section Widths

variable (arg : Int32)

/-- A conversion to 32 bits keeps the number unless it is negative. -/
theorem toUInt32_exact_iff : (arg.toUInt32.toNat : Int) = arg.toInt ↔ 0 ≤ arg.toInt := by
  have hnat := toNat_toUInt32 arg
  have hbounds := toInt_bounds arg
  omega

theorem toUInt16_exact_iff :
    (arg.toUInt32.toUInt16.toNat : Int) = arg.toInt ↔ 0 ≤ arg.toInt ∧ arg.toInt < 2 ^ 16 := by
  have hnat := toNat_toUInt32 arg
  have hbounds := toInt_bounds arg
  have hmod : arg.toUInt32.toUInt16.toNat = arg.toUInt32.toNat % 2 ^ 16 := UInt32.toNat_toUInt16 _
  omega

theorem toUInt8_exact_iff :
    (arg.toUInt32.toUInt8.toNat : Int) = arg.toInt ↔ 0 ≤ arg.toInt ∧ arg.toInt < 2 ^ 8 := by
  have hnat := toNat_toUInt32 arg
  have hbounds := toInt_bounds arg
  have hmod : arg.toUInt32.toUInt8.toNat = arg.toUInt32.toNat % 2 ^ 8 := UInt32.toNat_toUInt8 _
  omega

end Widths

namespace Cloner.ImportArgs

/-- Every argument of an import is the number that the command holds. -/
structure Matches (args : ImportArgs) (c : Command) : Prop where
  commandId : (c.commandId.toNat : Int) = args.commandId.toInt
  name : c.name = args.name
  timings : c.timings = args.timings
  gapUs : (c.gapUs.toNat : Int) = args.gapUs.toInt
  repeatTimes : (c.repeatTimes.toNat : Int) = args.repeatTimes.toInt
  frequencyHz : (c.frequencyHz.toNat : Int) = args.frequencyHz.toInt
  modulation : (c.modulation.toNat : Int) = args.modulation.toInt

/-- Every argument fits the parameter it is converted to. -/
def InRange (args : ImportArgs) : Prop :=
  0 ≤ args.commandId.toInt ∧ 0 ≤ args.gapUs.toInt ∧
    (0 ≤ args.repeatTimes.toInt ∧ args.repeatTimes.toInt < 2 ^ 16) ∧ 0 ≤ args.frequencyHz.toInt ∧
    (0 ≤ args.modulation.toInt ∧ args.modulation.toInt < 2 ^ 8)

/-- The command that is built has the numbers it was built from exactly if they are in range. -/
theorem matches_command_iff (args : ImportArgs) : args.Matches args.command ↔ args.InRange := by
  constructor
  · rintro ⟨hid, -, -, hgap, hrepeat, hfrequency, hmodulation⟩
    exact ⟨(toUInt32_exact_iff _).mp hid, (toUInt32_exact_iff _).mp hgap,
      (toUInt16_exact_iff _).mp hrepeat, (toUInt32_exact_iff _).mp hfrequency,
      (toUInt8_exact_iff _).mp hmodulation⟩
  · rintro ⟨hid, hgap, hrepeat, hfrequency, hmodulation⟩
    exact ⟨(toUInt32_exact_iff _).mpr hid, rfl, rfl, (toUInt32_exact_iff _).mpr hgap,
      (toUInt16_exact_iff _).mpr hrepeat, (toUInt32_exact_iff _).mpr hfrequency,
      (toUInt8_exact_iff _).mpr hmodulation⟩

/-- Arguments that are converted to the command. -/
def ofCommand (c : Command) : ImportArgs where
  commandId := c.commandId.toInt32
  name := c.name
  timings := c.timings
  gapUs := c.gapUs.toInt32
  repeatTimes := c.repeatTimes.toUInt32.toInt32
  frequencyHz := c.frequencyHz.toInt32
  modulation := c.modulation.toUInt32.toInt32

@[simp] theorem command_ofCommand (c : Command) : (ofCommand c).command = c := by
  simp [ofCommand, command]

end Cloner.ImportArgs

/-! ## What a call comes to -/

section Attempts

variable {op : Op} {s : CommandStore} {saves : Bool}

/-- What does not succeed leaves the store alone. -/
theorem attempt_of_ne_ok (hs : s.readOnly = false → s.Sound)
    (hop : ∀ random, op ≠ .factoryReset random) (h : (op.attempt saves s).1 ≠ .ok) :
    (op.attempt saves s).2 = s := by
  cases hplan : op.plan s with
  | stop result => rw [Op.attempt_of_stop hplan]
  | write payload next undone =>
    obtain ⟨-, -, rfl⟩ := (op_change hs hplan).resolve_right fun ⟨random, hreset, _⟩ =>
      hop random hreset
    rw [Op.attempt_of_write hplan] at h ⊢
    cases saves with
    | true => exact absurd rfl h
    | false => rfl

/-- What succeeds and has something to do has been written. -/
theorem write_of_attempt_ok (hop : ¬ s.NoOp op) (h : (op.attempt saves s).1 = .ok) :
    saves = true ∧ ∃ payload next undone, op.plan s = .write payload next undone ∧
      (op.attempt saves s).2 = next := by
  cases hplan : op.plan s with
  | stop result =>
    rw [Op.attempt_of_stop hplan] at h
    obtain rfl : result = .ok := h
    exact absurd (noOp_of_stop hplan) hop
  | write payload next undone =>
    rw [Op.attempt_of_write hplan] at h ⊢
    cases saves with
    | true => exact ⟨rfl, payload, next, undone, rfl, rfl⟩
    | false => cases h

/-- It succeeds exactly if its guards pass and its saves land. -/
theorem attempt_ok_iff (hop : ¬ s.NoOp op) :
    (op.attempt saves s).1 = .ok ↔ saves = true ∧ op.Accepts s := by
  constructor
  · intro h
    obtain ⟨hsaves, payload, next, undone, hplan, -⟩ := write_of_attempt_ok hop h
    exact ⟨hsaves, accepts_of_write hplan⟩
  · rintro ⟨rfl, hacc⟩
    obtain ⟨payload, next, undone, hplan⟩ := write_of_accepts hacc
    rw [Op.attempt_of_write hplan]
    rfl

/-- A wrapper returns whether the operation has succeeded. -/
theorem Cloner.finish_eq_true (attempted : StoreResult × CommandStore) (failed done : Bytes) :
    (Cloner.finish attempted failed done).1 = true ↔ attempted.1 = .ok := by
  obtain ⟨result, store⟩ := attempted
  cases result <;> simp [Cloner.finish]

/-- What `restore_begin` writes has the next id it was given. -/
theorem nextCommandId_restoreBegin {id : BridgeId} {next : UInt32}
    (h : ((Op.restoreBegin id next).attempt saves s).1 = .ok) :
    ((Op.restoreBegin id next).attempt saves s).2.nextCommandId = next := by
  have hop : ¬ s.NoOp (.restoreBegin id next) := fun h => h
  obtain ⟨-, payload, written, undone, hplan, hstore⟩ := write_of_attempt_ok hop h
  obtain ⟨-, -, -, -, rev, -, -, rfl, -⟩ := restoreBeginPlan_eq_write hplan
  rw [hstore]

/-- What `import_command` writes has the command it was given. -/
theorem get_importCommand (hs : s.readOnly = false → s.Sound) {c : Command}
    (h : ((Op.importCommand c).attempt saves s).1 = .ok) :
    ((Op.importCommand c).attempt saves s).2.get c.name = some c := by
  have hop : ¬ s.NoOp (.importCommand c) := fun h => h
  obtain ⟨-, payload, next, undone, hplan, hstore⟩ := write_of_attempt_ok hop h
  obtain ⟨hnext, -, -⟩ := op_next hs hplan
  obtain ⟨-, -, -, hadm, -, -, -, slot, rev, hfree, -, -, -, hset, -⟩ :=
    importCommandPlan_eq_write hplan
  have hslot : next.slot slot = c := by
    rw [hset]
    exact SlotTable.get_set_self (findFreeSlot_eq_some hfree).1 c
  have hfound := hnext.findSlot_name (i := slot) (by rw [hslot]; exact hadm.occupied)
  rw [hstore, CommandStore.get, ← congrArg Command.name hslot, hfound, Option.map_some, hslot]

end Attempts

/-! ## The boundary -/

namespace Cloner

variable {c : Cloner} {op : Op} {saves : Bool}

/-- A wrapper that returns false has left the store alone. -/
theorem store_finish_of_false (hs : c.store.readOnly = false → c.store.Sound)
    (hop : ∀ random, op ≠ .factoryReset random) (failed done : Bytes)
    (h : (finish (op.attempt saves c.store) failed done).1 = false) :
    (finish (op.attempt saves c.store) failed done).2.store = c.store := by
  rw [store_finish]
  refine attempt_of_ne_ok hs hop fun hok => ?_
  rw [(finish_eq_true _ failed done).mpr hok] at h
  cases h

/-- `rf_restore_begin` keeps the number it is given unless it accepts a negative one. -/
theorem restoreBegin_exact_iff (hs : c.store.readOnly = false → c.store.Sound)
    (bridgeIdHex : Bytes) (next : Int32) :
    let out := c.restoreBegin saves bridgeIdHex next.toUInt32
    ((out.1 = true → (out.2.store.nextCommandId.toNat : Int) = next.toInt) ∧
        (out.1 = false → out.2.store = c.store)) ↔
      (saves = true → ∀ id, parseBridgeId bridgeIdHex = some id →
        (Op.restoreBegin id next.toUInt32).Accepts c.store → 0 ≤ next.toInt) := by
  unfold restoreBegin
  cases parseBridgeId bridgeIdHex with
  | none => exact ⟨fun _ _ id hid => (nomatch hid), fun _ => ⟨fun h => (nomatch h), fun _ => rfl⟩⟩
  | some id =>
    have hop : ¬ c.store.NoOp (.restoreBegin id next.toUInt32) := fun h => h
    have hexact (hok : ((Op.restoreBegin id next.toUInt32).attempt saves c.store).1 = .ok) :
        (((Op.restoreBegin id next.toUInt32).attempt saves c.store).2.nextCommandId.toNat : Int)
          = next.toInt ↔ 0 ≤ next.toInt := by
      rw [nextCommandId_restoreBegin hok, toUInt32_exact_iff]
    dsimp only
    rw [and_iff_left (store_finish_of_false hs (fun _ h => Op.noConfusion h) _ _), finish_eq_true,
      store_finish]
    constructor
    · intro h hsaves id' hid' hacc
      obtain rfl := Option.some.inj hid'
      have hok := (attempt_ok_iff hop).mpr ⟨hsaves, hacc⟩
      exact (hexact hok).mp (h hok)
    · intro h hok
      obtain ⟨hsaves, hacc⟩ := (attempt_ok_iff hop).mp hok
      exact (hexact hok).mpr (h hsaves id rfl hacc)

/-- `rf_import` keeps the numbers it is given unless it accepts one that is out of range. -/
theorem importCommand_exact_iff (hs : c.store.readOnly = false → c.store.Sound)
    (args : ImportArgs) :
    let out := c.importCommand saves args.command
    ((out.1 = true → ∃ stored, out.2.store.get args.name = some stored ∧ args.Matches stored) ∧
        (out.1 = false → out.2.store = c.store)) ↔
      (saves = true → (Op.importCommand args.command).Accepts c.store → args.InRange) := by
  have hop : ¬ c.store.NoOp (.importCommand args.command) := fun h => h
  unfold importCommand
  dsimp only
  rw [and_iff_left (store_finish_of_false hs (fun _ h => Op.noConfusion h) _ _), finish_eq_true,
    store_finish]
  constructor
  · intro h hsaves hacc
    have hok := (attempt_ok_iff hop).mpr ⟨hsaves, hacc⟩
    obtain ⟨stored, hfound, hmatches⟩ := h hok
    obtain rfl := Option.some.inj ((get_importCommand hs hok).symm.trans hfound)
    exact args.matches_command_iff.mp hmatches
  · intro h hok
    obtain ⟨hsaves, hacc⟩ := (attempt_ok_iff hop).mp hok
    exact ⟨args.command, get_importCommand hs hok, args.matches_command_iff.mpr (h hsaves hacc)⟩

end Cloner

namespace Session

/-- **When a call stores the numbers it is given**, on any device that operations and reboots can
    lead to.  `rf_restore_begin`: if it is refused, or a save of it fails, or the next id is not
    negative.  `rf_import`: if it is refused, or a save of it fails, or its arguments are in range. -/
theorem boundary_exact_iff (lands : Nat → Bool) (cfg : Config) (random : Option BridgeId)
    (events : List Event) (lastResult : Bytes) (saves : Bool) :
    let c : Cloner := ⟨(run lands (powerOn lands cfg random) events).store, lastResult⟩
    (∀ (bridgeIdHex : Bytes) (next : Int32),
      let out := c.restoreBegin saves bridgeIdHex next.toUInt32
      ((out.1 = true → (out.2.store.nextCommandId.toNat : Int) = next.toInt) ∧
          (out.1 = false → out.2.store = c.store)) ↔
        (saves = true → ∀ id, parseBridgeId bridgeIdHex = some id →
          (Op.restoreBegin id next.toUInt32).Accepts c.store → 0 ≤ next.toInt)) ∧
    ∀ args : Cloner.ImportArgs,
      let out := c.importCommand saves args.command
      ((out.1 = true → ∃ stored, out.2.store.get args.name = some stored ∧ args.Matches stored) ∧
          (out.1 = false → out.2.store = c.store)) ↔
        (saves = true → (Op.importCommand args.command).Accepts c.store → args.InRange) := by
  intro c
  have hs : c.store.readOnly = false → c.store.Sound := (founded_run lands cfg random events).ram
  exact ⟨Cloner.restoreBegin_exact_iff hs, Cloner.importCommand_exact_iff hs⟩

/-- What comes of -1, and of numbers that are too wide, on a device with an open restore. -/
theorem boundary_narrows :
    let x := run (fun _ => true) (powerOn (fun _ => true) ⟨2, 4, 300, 7⟩ none) []
    let begun := Cloner.restoreBegin true (utf8 BridgeId.zero.hex) (-1 : Int32).toUInt32 ⟨x.store, []⟩
    let args : Cloner.ImportArgs :=
      { commandId := 1, name := ascii "a", timings := [350, -1050], gapUs := -1,
        repeatTimes := 65537, frequencyHz := -2, modulation := 256 }
    let imported := begun.2.importCommand true args.command
    begun.1 = true ∧ begun.2.store.nextCommandId = 4294967295 ∧ imported.1 = true ∧
      imported.2.store.get (ascii "a") = some
        { commandId := 1, name := ascii "a", timings := [350, -1050], gapUs := 4294967295,
          repeatTimes := 1, frequencyHz := 4294967294, modulation := 0 } := by
  decide +kernel

end Session

/-! ## What can be carried back -/

/-- A command's numbers are within what the arguments of `rf_import` can carry. -/
def Command.Sendable (c : Command) : Prop :=
  c.commandId.toNat < 2 ^ 31 ∧ c.gapUs.toNat < 2 ^ 31 ∧ c.repeatTimes.toNat < 2 ^ 31 ∧
    c.frequencyHz.toNat < 2 ^ 31 ∧ c.modulation.toNat < 2 ^ 31

namespace CommandStore

/-- Every number of the registry is within what the arguments of a restore can carry. -/
structure Sendable (s : CommandStore) : Prop where
  nextCommandId : s.nextCommandId.toNat < 2 ^ 31
  revision : s.revision.toNat < 2 ^ 31
  commands : ∀ c ∈ s.commands, c.Sendable

/-- There are arguments that carry the registry unchanged. -/
structure Deliverable (s : CommandStore) : Prop where
  nextCommandId : ∃ arg : Int32, arg.toInt = s.nextCommandId.toNat ∧ arg.toUInt32 = s.nextCommandId
  revision : ∃ arg : Int32, arg.toInt = s.revision.toNat ∧ arg.toUInt32 = s.revision
  commands : ∀ c ∈ s.commands, ∃ args : Cloner.ImportArgs, args.Matches c ∧ args.command = c

end CommandStore

/-- A number below 2^31 has an argument that carries it. -/
theorem exists_argument {n : UInt32} (h : n.toNat < 2 ^ 31) :
    n.toInt32.toInt = n.toNat ∧ n.toInt32.toUInt32 = n := by
  have hback : n.toInt32.toUInt32 = n := UInt32.toUInt32_toInt32 n
  have hnat := toNat_toUInt32 n.toInt32
  have hbounds := toInt_bounds n.toInt32
  rw [hback] at hnat
  exact ⟨by omega, hback⟩

section Sendable

variable {s t u : CommandStore} {c : Command}

theorem Command.Sendable.arguments (h : c.Sendable) :
    ∃ args : Cloner.ImportArgs, args.Matches c ∧ args.command = c := by
  obtain ⟨hid, hgap, hrepeat, hfrequency, hmodulation⟩ := h
  have hwide : c.repeatTimes.toUInt32.toNat = c.repeatTimes.toNat := UInt16.toNat_toUInt32 _
  have hwide' : c.modulation.toUInt32.toNat = c.modulation.toNat := UInt8.toNat_toUInt32 _
  refine ⟨.ofCommand c, ?_, Cloner.ImportArgs.command_ofCommand c⟩
  constructor
  · exact (exists_argument hid).1.symm
  · rfl
  · rfl
  · exact (exists_argument hgap).1.symm
  · rw [← hwide]
    exact (exists_argument (by omega)).1.symm
  · exact (exists_argument hfrequency).1.symm
  · rw [← hwide']
    exact (exists_argument (by omega)).1.symm

/-- **What is within the range can be carried.** -/
theorem CommandStore.Sendable.deliverable (h : s.Sendable) : s.Deliverable where
  nextCommandId := ⟨_, exists_argument h.nextCommandId⟩
  revision := ⟨_, exists_argument h.revision⟩
  commands c hc := (h.commands c hc).arguments

/-- The free slot's command is sendable. -/
theorem sendable_free : ({} : Command).Sendable := by
  unfold Command.Sendable
  decide

theorem CommandStore.Sendable.slot (h : s.Sendable) {i : Nat} (hocc : (s.slot i).occupied = true) :
    (s.slot i).Sendable :=
  h.commands _ (slot_mem_commands hocc)

/-- Sendable slots are sendable commands. -/
theorem sendable_commands (h : ∀ i, (s.slot i).occupied = true → (s.slot i).Sendable) :
    ∀ c ∈ s.commands, c.Sendable := by
  intro c hc
  obtain ⟨i, rfl, hocc⟩ := SlotTable.mem_content.mp hc
  exact h i hocc

/-- One slot is set. -/
theorem CommandStore.Sendable.set (h : s.Sendable) {i : Nat} (hi : i < s.slots.length)
    (hslots : t.slots = s.slots.set i c) (hc : c.Sendable) (hnext : t.nextCommandId.toNat < 2 ^ 31)
    (hrevision : t.revision.toNat < 2 ^ 31) : t.Sendable where
  nextCommandId := hnext
  revision := hrevision
  commands := by
    refine sendable_commands fun k hocc => ?_
    rw [slot_of_set hslots hi] at hocc ⊢
    split at hocc
    · rename_i hk
      rw [if_pos hk]
      exact hc
    · rename_i hk
      rw [if_neg hk]
      exact h.slot hocc

/-- Without commands only the counters matter. -/
theorem sendable_of_empty {n : Nat} (hslots : s.slots = List.replicate n {})
    (hnext : s.nextCommandId.toNat < 2 ^ 31) (hrevision : s.revision.toNat < 2 ^ 31) :
    s.Sendable where
  nextCommandId := hnext
  revision := hrevision
  commands := by
    refine sendable_commands fun i hocc => ?_
    rw [slot_of_replicate hslots] at hocc
    cases hocc

theorem lt_of_le_revisionMax {rev : UInt32} (h : rev ≤ revisionMax) : rev.toNat < 2 ^ 31 := by
  have hle := UInt32.le_iff_toNat_le.mp h
  have hmax : revisionMax.toNat = 2 ^ 31 - 2 := rfl
  omega

/-- What is read back from the index of a sendable store is sendable. -/
theorem CommandStore.Reloads.sendable {r : Records UInt32} (h : Reloads r t u) (ht : t.Sendable) :
    u.Sendable where
  nextCommandId := h.nextCommandId ▸ ht.nextCommandId
  revision := h.revision ▸ ht.revision
  commands := by
    refine sendable_commands fun i hocc => ?_
    obtain ⟨hocc', hsame, -⟩ := h.slot_of_occupied hocc
    rw [hsame]
    exact ht.slot hocc'

/-- The index of a store has all its numbers. -/
theorem sendable_of_indexRecord_eq (hu : u.Sound) (hindex : t.indexRecord = u.indexRecord)
    (h : t.Sendable) : u.Sendable := by
  have hmeta : t.storedMeta = u.storedMeta := by
    rw [← storedMetaOf_indexRecord, ← storedMetaOf_indexRecord, hindex]
  have hcount : t.config.maxCommands = u.config.maxCommands := by
    apply indexBytesFor_inj
    rw [← length_indexRecord, ← length_indexRecord, hindex]
  refine ⟨?_, ?_, sendable_commands fun i hocc => ?_⟩
  · rw [← show t.nextCommandId = u.nextCommandId from congrArg StoredMeta.nextCommandId hmeta]
    exact h.nextCommandId
  · rw [← show t.revision = u.revision from congrArg StoredMeta.revision hmeta]
    exact h.revision
  · have hi : i < u.config.maxCommands.toNat := hu.sized ▸ lt_of_slot_occupied hocc
    have hslot : StoredSlot.ofCommand (t.slot i) = StoredSlot.ofCommand (u.slot i) := by
      rw [← storedSlotAt_indexRecord t (hcount ▸ hi), ← storedSlotAt_indexRecord u hi, hindex]
    by_cases hocc' : (t.slot i).occupied = true
    · obtain ⟨hid, hgap, hrepeat, hfrequency, hmodulation⟩ := h.slot hocc'
      rw [StoredSlot.ofCommand, StoredSlot.ofCommand, if_pos hocc, if_pos hocc'] at hslot
      injection hslot with _ hid' _ hrepeat' hgap' hfrequency' hmodulation' _
      unfold Command.Sendable
      rw [← hid', ← hgap', ← hrepeat', ← hfrequency', ← hmodulation']
      exact ⟨hid, hgap, hrepeat, hfrequency, hmodulation⟩
    · rw [StoredSlot.ofCommand, StoredSlot.ofCommand, if_pos hocc, if_neg hocc'] at hslot
      injection hslot with _ hid' _ _ _ _ _ _
      exact absurd hid'.symm (Command.occupied_iff.mp hocc)

end Sendable

/-! ## On flash -/

/-- Every index on flash is that of a registry that can be sent. -/
def SendableIndexes (r : Records UInt32) : Prop :=
  ∀ key, ∀ t : CommandStore, t.Sound → r key = some t.indexRecord → t.Sendable

section Flash

variable {r : Records UInt32} {t : CommandStore}

theorem SendableIndexes.save_index (h : SendableIndexes r) (ht : t.Sendable) (key : UInt32) :
    SendableIndexes (r.save key t.indexRecord) := by
  intro key' u hu hget
  by_cases hkey : key' = key
  · rw [hkey, Records.save_self] at hget
    exact sendable_of_indexRecord_eq hu (Option.some.inj hget) ht
  · rw [Records.save_of_ne hkey] at hget
    exact h key' u hu hget

/-- A record that is no index does not matter. -/
theorem SendableIndexes.save_other (h : SendableIndexes r) {d : Bytes}
    (hd : ∀ m, d.length ≠ indexBytesFor m) (key : UInt32) : SendableIndexes (r.save key d) := by
  intro key' u hu hget
  by_cases hkey : key' = key
  · rw [hkey, Records.save_self] at hget
    rw [Option.some.inj hget, length_indexRecord] at hd
    exact absurd rfl (hd _)
  · rw [Records.save_of_ne hkey] at hget
    exact h key' u hu hget

theorem length_header_ne_index (cfg : Config) (m : UInt8) :
    (headerRecord cfg).length ≠ indexBytesFor m := by
  rw [length_headerRecord, width_header, indexBytesFor_eq]
  omega

theorem length_payload_ne_index (timings : List Int32) (m : UInt8) :
    (timingsBytes timings).length ≠ indexBytesFor m := by
  rw [length_timingsBytes, indexBytesFor_eq]
  omega

/-- **A write that stops anywhere**: the flash goes on to have sendable indexes only, exactly if what
    is written is sendable or its index is not among the first `n` saves. -/
theorem sendableIndexes_apply_iff (h : SendableIndexes r) (ht : t.Sound) (payload : Option Nat)
    (n : Nat) : SendableIndexes (r.apply ((t.records payload).take n)) ↔
      (payload.toList.length < n → t.Sendable) := by
  have hindex : ∀ {r : Records UInt32}, SendableIndexes r → ∀ n,
      SendableIndexes (r.apply (t.indexRecords.take n)) ↔ (0 < n → t.Sendable) := by
    intro r h n
    rcases n with _ | _ | n
    · rw [List.take_zero]
      exact ⟨fun _ hlt => absurd hlt (Nat.lt_irrefl 0), fun _ => h⟩
    · constructor
      · intro hafter _
        exact hafter t.config.indexKey t ht (Records.save_self _ _ _)
      · intro hsendable
        exact h.save_index (hsendable Nat.one_pos) t.config.indexKey
    · rw [List.take_of_length_le (Nat.le_add_left 2 n)]
      constructor
      · intro hafter _
        exact hafter t.config.indexKey t ht apply_indexRecords_index
      · intro hsendable
        rw [apply_indexRecords]
        exact (h.save_index (hsendable (Nat.succ_pos _)) _).save_other
          (length_header_ne_index t.config) _
  cases payload with
  | none =>
    rw [records_none]
    exact hindex h n
  | some i =>
    rw [records_some]
    rcases n with _ | n
    · rw [List.take_zero]
      exact ⟨fun _ hlt => absurd hlt (Nat.not_lt_zero 1), fun _ => h⟩
    · have hpayload : SendableIndexes (r.save (t.payloadRecord i).1 (t.payloadRecord i).2) :=
        h.save_other (length_payload_ne_index _) _
      rw [List.take_succ_cons, Records.apply_cons, hindex hpayload]
      have hone : 0 < n ↔ (some i).toList.length < n + 1 := by
        show 0 < n ↔ 1 < n + 1
        omega
      exact imp_congr_left hone

end Flash

/-! ## The actions -/

/-- The actions that change the registry, as they are called; and what a learn comes to, whatever
    has been captured by then. -/
inductive Action where
  | learned (name : Bytes) (capture : CaptureState)
  | rename (commandId : Int32) (newName : Bytes)
  | delete (name : Bytes)
  | deleteId (commandId : Int32)
  | clear
  | factoryReset (random : Option BridgeId)
  | restoreBegin (bridgeIdHex : Bytes) (nextCommandId : Int32)
  | importCommand (args : Cloner.ImportArgs)
  | restoreCommit (sourceRevision : Int32)
  deriving DecidableEq

/-- What an action has the store do, if it gets that far. -/
def Action.op (cfg : CaptureConfig) : Action → Option Op
  | .learned name capture =>
    some (.put
      { name := name
        timings := capture.candidate
        gapUs := capture.resolveGapUs cfg
        repeatTimes := cfg.defaultRepeatTimes
        frequencyHz := cfg.frequencyHz
        modulation := 0 })
  | .rename commandId newName => some (.rename commandId.toUInt32 newName)
  | .delete name => some (.remove name)
  | .deleteId commandId => some (.removeById commandId.toUInt32)
  | .clear => some .clearAll
  | .factoryReset random => some (.factoryReset random)
  | .restoreBegin bridgeIdHex nextCommandId =>
    (parseBridgeId bridgeIdHex).map fun id => .restoreBegin id nextCommandId.toUInt32
  | .importCommand args => some (.importCommand args.command)
  | .restoreCommit sourceRevision =>
    if sourceRevision < 0 then none else some (.restoreCommit sourceRevision.toUInt32)

/-- The call has the store hold a number that no argument can carry: a negative one that it is given,
    or the next id past the last that fits. -/
def Action.Exceeds (s : CommandStore) : Action → Prop
  | .learned name _ => s.has name = false ∧ s.nextCommandId.toNat = 2 ^ 31 - 1
  | .restoreBegin _ nextCommandId => nextCommandId.toInt < 0
  | .importCommand args => args.gapUs.toInt < 0 ∨ args.frequencyHz.toInt < 0
  | _ => False

/-- The gaps and the frequency that are configured fit their arguments; the default gap lies between
    the other two. -/
structure CaptureConfig.Sendable (cfg : CaptureConfig) : Prop where
  maxGapUs : cfg.maxGapUs.toNat < 2 ^ 31
  defaultGapUs : cfg.defaultGapUs ≤ cfg.maxGapUs
  frequencyHz : cfg.frequencyHz.toNat < 2 ^ 31

/-- **What an event of the component does to the registry is what one of the actions does**, with
    its saves or without. -/
theorem LearningCloner.action_of_step (cfg : CaptureConfig) (c : LearningCloner) (event : LearnEvent) :
    (c.step cfg event).1.store = c.store ∨
    ∃ (saves : Bool) (a : Action) (op : Op), a.op cfg = some op ∧
      (c.step cfg event).1.store = (op.attempt saves c.store).2 := by
  have hcommit (saves : Bool) (d : LearningCloner) : (d.commitCapture cfg saves).1.store
      = ((Op.put (d.captured cfg)).attempt saves d.store).2 := by
    unfold commitCapture
    split
    · rename_i store hok
      rw [hok]
    · rename_i result store _ hfailed
      rw [hfailed]
  have hcase := step_cases cfg c event
  generalize c.step cfg event = out at hcase ⊢
  cases hcase with
  | rearmed name timeoutMs nowMs => exact Or.inl (store_arm cfg name timeoutMs nowMs _).1
  | armed name timeoutMs nowMs => exact Or.inl (store_arm cfg name timeoutMs nowMs c).1
  | ignored => exact Or.inl rfl
  | failed => exact Or.inl rfl
  | received => exact Or.inl rfl
  | committed saves =>
    exact Or.inr ⟨saves, .learned c.pendingName _, _, rfl, hcommit saves _⟩
  | waited => exact Or.inl rfl
  | settled saves => exact Or.inr ⟨saves, .learned c.pendingName _, _, rfl, hcommit saves c⟩
  | acted saves action =>
    cases action with
    | rename commandId newName =>
      refine Or.inr ⟨saves, .rename commandId.toInt32 newName, _, rfl, ?_⟩
      rw [UInt32.toUInt32_toInt32]
      exact Cloner.store_finish ..
    | erase name => exact Or.inr ⟨saves, .delete name, _, rfl, Cloner.store_finish ..⟩
    | eraseById commandId =>
      refine Or.inr ⟨saves, .deleteId commandId.toInt32, _, rfl, ?_⟩
      rw [UInt32.toUInt32_toInt32]
      exact Cloner.store_finish ..
    | clearAll => exact Or.inr ⟨saves, .clear, _, rfl, Cloner.store_finish ..⟩
    | factoryReset random =>
      exact Or.inr ⟨saves, .factoryReset random, _, rfl, Cloner.store_finish ..⟩
    | restoreBegin bridgeIdHex nextCommandId =>
      show (c.toCloner.restoreBegin saves bridgeIdHex nextCommandId).2.store = c.store ∨ _
      cases hparse : parseBridgeId bridgeIdHex with
      | none =>
        left
        unfold Cloner.restoreBegin
        rw [hparse]
      | some id =>
        right
        refine ⟨saves, .restoreBegin bridgeIdHex nextCommandId.toInt32, .restoreBegin id nextCommandId,
          ?_, ?_⟩
        · simp [Action.op, hparse]
        · show (c.toCloner.restoreBegin saves bridgeIdHex nextCommandId).2.store = _
          unfold Cloner.restoreBegin
          rw [hparse]
          exact Cloner.store_finish ..
    | importCommand command =>
      refine Or.inr ⟨saves, .importCommand (.ofCommand command), _, rfl, ?_⟩
      rw [Cloner.ImportArgs.command_ofCommand]
      exact Cloner.store_finish ..
    | restoreCommit sourceRevision =>
      have hstore := c.toCloner.store_rfRestoreCommit saves sourceRevision
      by_cases hneg : sourceRevision < 0
      · rw [if_pos hneg] at hstore
        exact Or.inl hstore
      · rw [if_neg hneg] at hstore
        exact Or.inr ⟨saves, .restoreCommit sourceRevision, _, if_neg hneg, hstore⟩

section Operations

variable {cfg : CaptureConfig} {s next undone : CommandStore} {payload : Option Nat}

/-- A gap is a measured or an estimated one, or the default. -/
theorem resolveGapUs_le (hcfg : cfg.Sendable) (capture : CaptureState) :
    capture.resolveGapUs cfg ≤ cfg.maxGapUs := by
  unfold CaptureState.resolveGapUs
  split
  · rename_i hmeasured
    unfold CaptureState.measured at hmeasured
    simp only [Bool.and_eq_true, decide_eq_true_eq] at hmeasured
    exact hmeasured.2
  · split
    · rename_i hestimated
      exact (estimateGapUs_bounds hestimated).2
    · exact hcfg.defaultGapUs

/-- What a learn writes can be sent, unless it takes the last id that fits. -/
theorem sendable_learned_iff (hcfg : cfg.Sendable) (h : s.Sendable)
    (hrevision : next.revision.toNat < 2 ^ 31) {name : Bytes} {capture : CaptureState} {op : Op}
    (hop : (Action.learned name capture).op cfg = some op)
    (hplan : op.plan s = .write payload next undone) :
    next.Sendable ↔ ¬ (Action.learned name capture).Exceeds s := by
  obtain rfl := Option.some.inj hop
  obtain ⟨-, -, -, -, slot, overwriting, id, rev, hslot, -, -, -, rfl, -⟩ := putPlan_eq_write hplan
  have hgap : (capture.resolveGapUs cfg).toNat < 2 ^ 31 :=
    Nat.lt_of_le_of_lt (UInt32.le_iff_toNat_le.mp (resolveGapUs_le hcfg capture)) hcfg.maxGapUs
  have hcommand {id : UInt32} (hid : id.toNat < 2 ^ 31) :
      Command.Sendable
        { commandId := id
          name := name
          timings := capture.candidate
          gapUs := capture.resolveGapUs cfg
          repeatTimes := cfg.defaultRepeatTimes
          frequencyHz := cfg.frequencyHz
          modulation := 0 } :=
    ⟨hid, hgap, Nat.lt_trans cfg.defaultRepeatTimes.toNat_lt (by decide), hcfg.frequencyHz,
      Nat.two_pow_pos 31⟩
  rcases putSlot_eq_ok hslot with ⟨rfl, hfind, rfl⟩ | ⟨rfl, hnone, hfree, hlast, rfl⟩
  · have hocc := (findSlot_eq_some hfind).1
    refine iff_of_true (h.set (lt_of_slot_occupied hocc) rfl (hcommand (h.slot hocc).1)
      h.nextCommandId hrevision) fun hexceeds => ?_
    have hhas : s.has name = false := hexceeds.1
    rw [has, hfind] at hhas
    cases hhas
  · have hsucc : (s.nextCommandId + 1).toNat = s.nextCommandId.toNat + 1 := by
      have hlt := h.nextCommandId
      rw [UInt32.toNat_add, UInt32.toNat_one]
      omega
    have hhas : s.has name = false := by
      rw [has, hnone]
      rfl
    constructor
    · intro hsendable hexceeds
      have hlt : (s.nextCommandId + 1).toNat < 2 ^ 31 := hsendable.nextCommandId
      have hedge : s.nextCommandId.toNat = 2 ^ 31 - 1 := hexceeds.2
      omega
    · intro hexact
      have hedge : s.nextCommandId.toNat ≠ 2 ^ 31 - 1 := fun hedge => hexact ⟨hhas, hedge⟩
      have hlt := h.nextCommandId
      have hnext : (s.nextCommandId + 1).toNat < 2 ^ 31 := by omega
      exact h.set (findFreeSlot_eq_some hfree).1 rfl (hcommand hlt) hnext hrevision

/-- What the begin of a restore writes can be sent, unless its next id is negative. -/
theorem sendable_restoreBegin_iff (h : s.Sendable) (hrevision : next.revision.toNat < 2 ^ 31)
    (bridgeIdHex : Bytes) {nextCommandId : Int32} {id : BridgeId}
    (hplan : (Op.restoreBegin id nextCommandId.toUInt32).plan s = .write payload next undone) :
    next.Sendable ↔ ¬ (Action.restoreBegin bridgeIdHex nextCommandId).Exceeds s := by
  obtain ⟨-, -, -, -, rev, -, -, rfl, -⟩ := restoreBeginPlan_eq_write hplan
  have hnat := toNat_toUInt32 nextCommandId
  have hbounds := toInt_bounds nextCommandId
  constructor
  · intro hsendable hnegative
    have hlt : nextCommandId.toUInt32.toNat < 2 ^ 31 := hsendable.nextCommandId
    have hneg : nextCommandId.toInt < 0 := hnegative
    omega
  · intro hexact
    have hpos : ¬ nextCommandId.toInt < 0 := hexact
    have hlt : nextCommandId.toUInt32.toNat < 2 ^ 31 := by omega
    exact ⟨hlt, hrevision, h.commands⟩

/-- What an import writes can be sent, unless its gap or its frequency is negative. -/
theorem sendable_importCommand_iff (h : s.Sendable) (hrevision : next.revision.toNat < 2 ^ 31)
    {args : Cloner.ImportArgs}
    (hplan : (Op.importCommand args.command).plan s = .write payload next undone) :
    next.Sendable ↔ ¬ (Action.importCommand args).Exceeds s := by
  obtain ⟨-, -, -, hadm, hid, -, -, slot, rev, hfree, -, -, -, rfl, -⟩ :=
    importCommandPlan_eq_write hplan
  have hslot := (findFreeSlot_eq_some hfree).1
  have hgap := toNat_toUInt32 args.gapUs
  have hgap' := toInt_bounds args.gapUs
  have hfrequency := toNat_toUInt32 args.frequencyHz
  have hfrequency' := toInt_bounds args.frequencyHz
  constructor
  · intro hsendable hexceeds
    have hnew := hsendable.slot (i := slot) (by
      rw [slot_of_set rfl hslot, if_pos rfl]
      exact hadm.occupied)
    rw [slot_of_set rfl hslot, if_pos rfl] at hnew
    have hlt : args.gapUs.toUInt32.toNat < 2 ^ 31 := hnew.2.1
    have hlt' : args.frequencyHz.toUInt32.toNat < 2 ^ 31 := hnew.2.2.2.1
    have hneg : args.gapUs.toInt < 0 ∨ args.frequencyHz.toInt < 0 := hexceeds
    omega
  · intro hexact
    have hpos : ¬ (args.gapUs.toInt < 0 ∨ args.frequencyHz.toInt < 0) := hexact
    have hcommand : args.command.Sendable := by
      refine ⟨?_, ?_, ?_, ?_, ?_⟩
      · exact Nat.lt_trans (UInt32.lt_iff_toNat_lt.mp hid) h.nextCommandId
      · show args.gapUs.toUInt32.toNat < 2 ^ 31
        omega
      · exact Nat.lt_trans args.command.repeatTimes.toNat_lt (by decide)
      · show args.frequencyHz.toUInt32.toNat < 2 ^ 31
        omega
      · exact Nat.lt_trans args.command.modulation.toNat_lt (by decide)
    exact h.set hslot rfl hcommand h.nextCommandId hrevision

/-- **What an action writes can be sent exactly if the call does not exceed.** -/
theorem sendable_next_iff (hcfg : cfg.Sendable) (hs : s.readOnly = false → s.Sound)
    (h : s.Sendable) {a : Action} {op : Op} (hop : a.op cfg = some op)
    (hplan : op.plan s = .write payload next undone) : next.Sendable ↔ ¬ a.Exceeds s := by
  have hrevision : next.revision.toNat < 2 ^ 31 :=
    lt_of_le_revisionMax (op_next hs hplan).1.revision_le
  have hstays (hsome : next.Sendable) (hnot : a.Exceeds s = False) :
      next.Sendable ↔ ¬ a.Exceeds s := by
    rw [hnot]
    exact iff_of_true hsome not_false
  cases a with
  | learned name capture =>
    exact sendable_learned_iff hcfg h hrevision hop hplan
  | rename commandId newName =>
    obtain rfl := Option.some.inj hop
    obtain ⟨-, -, slot, rev, hslot, -, -, -, rfl, -⟩ := renamePlan_eq_write hplan
    have hocc := (findSlotById_eq_some hslot).1
    exact hstays (h.set (lt_of_slot_occupied hocc) rfl (h.slot hocc) h.nextCommandId hrevision) rfl
  | delete name =>
    obtain rfl := Option.some.inj hop
    obtain ⟨_, -, hplan'⟩ := removePlan_eq_write hplan
    obtain ⟨-, slot, rev, hslot, -, -, rfl, -⟩ := removeByIdPlan_eq_write hplan'
    have hocc := (findSlotById_eq_some hslot).1
    exact hstays (h.set (lt_of_slot_occupied hocc) rfl sendable_free h.nextCommandId hrevision) rfl
  | deleteId commandId =>
    obtain rfl := Option.some.inj hop
    obtain ⟨-, slot, rev, hslot, -, -, rfl, -⟩ := removeByIdPlan_eq_write hplan
    have hocc := (findSlotById_eq_some hslot).1
    exact hstays (h.set (lt_of_slot_occupied hocc) rfl sendable_free h.nextCommandId hrevision) rfl
  | clear =>
    obtain rfl := Option.some.inj hop
    obtain ⟨-, -, rev, -, -, rfl, -⟩ := clearAllPlan_eq_write hplan
    exact hstays (sendable_of_empty rfl h.nextCommandId hrevision) rfl
  | factoryReset random =>
    obtain rfl := Option.some.inj hop
    obtain ⟨-, -, rfl, -⟩ := factoryResetPlan_eq_write hplan
    have hfirst : commandIdFirst.toNat < 2 ^ 31 := by decide
    exact hstays (sendable_of_empty rfl hfirst hrevision) rfl
  | restoreBegin bridgeIdHex nextCommandId =>
    obtain ⟨id, -, rfl⟩ := Option.map_eq_some_iff.mp hop
    exact sendable_restoreBegin_iff h hrevision bridgeIdHex hplan
  | importCommand args =>
    obtain rfl := Option.some.inj hop
    exact sendable_importCommand_iff h hrevision hplan
  | restoreCommit sourceRevision =>
    have hsome : (if sourceRevision < 0 then none else some (Op.restoreCommit sourceRevision.toUInt32))
      = some op := hop
    obtain rfl := Option.some.inj (Option.ite_none_left_eq_some.mp hsome).2
    obtain ⟨-, -, -, rev, -, -, rfl, -⟩ := restoreCommitPlan_eq_write hplan
    exact hstays ⟨h.nextCommandId, hrevision, h.commands⟩ rfl

end Operations

/-! ## Runs of actions -/

/-- An action, or a reboot. -/
inductive DeviceEvent where
  | action (action : Action)
  | reboot (config : Config) (random : Option BridgeId)
  deriving DecidableEq

namespace Session

variable (lands : Nat → Bool) (cfg : CaptureConfig)

/-- One of them happens to a device. -/
def use (x : Session) : DeviceEvent → Session
  | .action a =>
    match a.op cfg with
    | none => x
    | some op => step lands x (.op op)
  | .reboot config random => step lands x (.reboot config random)

/-- The event stores a number that no argument can carry: an action that exceeds is accepted, and its
    index is saved. -/
def Overflows (x : Session) : DeviceEvent → Prop
  | .action a => a.Exceeds x.store ∧ ∃ op, a.op cfg = some op ∧ op.Accepts x.store ∧
      ∀ i < (if op.savesPayload then 2 else 1), lands (x.flash.attempts + i) = true
  | .reboot _ _ => False

/-- What the device holds can be sent, in RAM and in every index on flash. -/
def Sendable (x : Session) : Prop := x.store.Sendable ∧ SendableIndexes x.flash.records

variable {lands cfg} {x : Session}

theorem use_of_refused {a : Action} (hop : a.op cfg = none) : x.use lands cfg (.action a) = x := by
  show (match a.op cfg with | none => x | some op => step lands x (.op op)) = x
  rw [hop]

theorem use_of_op {a : Action} {op : Op} (hop : a.op cfg = some op) :
    x.use lands cfg (.action a) = step lands x (.op op) := by
  show (match a.op cfg with | none => x | some op => step lands x (.op op)) = _
  rw [hop]

theorem Founded.use (hx : Founded x) (e : DeviceEvent) : Founded (x.use lands cfg e) := by
  cases e with
  | action a =>
    cases hop : a.op cfg with
    | none =>
      rw [use_of_refused hop]
      exact hx
    | some op =>
      rw [use_of_op hop]
      exact hx.op op
  | reboot config random => exact Founded.boot hx.flash config random

variable (lands) in
/-- A reboot reads what can be sent, or starts over. -/
theorem Sendable.boot {flash : Fake UInt32} (hflash : Authored flash.records)
    (h : SendableIndexes flash.records) (config : Config) (random : Option BridgeId) : (boot lands config random flash).Sendable := by
  have hfirst : commandIdFirst.toNat < 2 ^ 31 := by decide
  cases hload : (faulty lands).load config.headerKey StoredHeader.codec.width flash with
  | none =>
    have hboot := boot_of_no_header config (faulty lands) flash random hload
    have hmint : ((configure config).mintIdentity random).Sendable :=
      sendable_of_empty rfl hfirst (Nat.one_lt_two_pow (by decide))
    have hsound := mint_sound config random
    obtain ⟨n, -, hrec, -⟩ :=
      saveAll_faulty lands ((configure config).mintIdentity random).indexRecords flash
    rw [← writeIndex_eq_saveAll] at hrec
    refine ⟨?_, ?_⟩
    · rw [show (Session.boot lands config random flash).store = _ from
        congrArg (fun out => out.2.1) hboot]
      exact hmint
    · rw [show (Session.boot lands config random flash).flash.records = _ from
        (congrArg (fun out => out.2.2.records) hboot).trans hrec]
      exact (sendableIndexes_apply_iff h hsound none n).mpr fun _ => hmint
  | some header =>
    have hboot := boot_of_header config (faulty lands) flash random hload
    refine ⟨?_, ?_⟩
    · rw [show (Session.boot lands config random flash).store = _ from
        congrArg (fun out => out.2.1) hboot]
      rcases readHeader_cases (fun key len => (faulty lands).load key len flash) config header with
        ⟨fault, hout⟩ | ⟨m, raw, ro, fault, -, hraw, -, hout⟩
      · rw [hout]
        exact sendable_of_empty rfl hfirst (Nat.two_pow_pos 31)
      · obtain ⟨hget, hlen⟩ := Records.load_eq_some.mp (show flash.records.load _ _ = _ from hraw)
        obtain ⟨t, ht, rfl⟩ := (hflash _ _ hget).index_of_length hlen
        obtain rfl := indexBytesFor_inj ((length_indexRecord t).symm.trans hlen)
        have hreload : Reloads flash.records t
            (decoded flash.records.load config t.config.maxCommands t.indexRecord) :=
          reloads_decoded ht.toWellFormed
        have hdecoded := hreload.sendable (h _ t ht hget)
        rw [hout]
        exact ⟨hdecoded.nextCommandId, hdecoded.revision, hdecoded.commands⟩
    · rw [show (Session.boot lands config random flash).flash = _ from
        congrArg (fun out => out.2.2) hboot]
      exact h

/-- A call that writes overflows if it exceeds and its index is saved, which is the last of its
    saves. -/
theorem overflows_of_write {a : Action} {op : Op} {payload : Option Nat} {next undone : CommandStore}
    (hop : a.op cfg = some op) (hplan : op.plan x.store = .write payload next undone) :
    x.Overflows lands cfg (.action a) ↔ a.Exceeds x.store ∧
      ∀ i < payload.toList.length + 1, lands (x.flash.attempts + i) = true := by
  have hcount : (if op.savesPayload then 2 else 1) = payload.toList.length + 1 := by
    rw [← savesPayload_of_write hplan]
    cases payload <;> rfl
  rw [← hcount]
  constructor
  · rintro ⟨hexceeds, op', hsome, -, hlands⟩
    obtain rfl := Option.some.inj (hop.symm.trans hsome)
    exact ⟨hexceeds, hlands⟩
  · rintro ⟨hexceeds, hlands⟩
    exact ⟨hexceeds, op, hop, accepts_of_write hplan, hlands⟩

/-- What a call that writes leaves can be sent exactly if its store can, and the index that it saved. -/
theorem sendable_step_iff {op : Op} {payload : Option Nat} {next after : CommandStore} {n : Nat}
    (h : x.Sendable) (hsound : next.Sound) (hstore : (step lands x (.op op)).store = after)
    (hrec : (step lands x (.op op)).flash.records
      = x.flash.records.apply ((next.records payload).take n)) :
    (step lands x (.op op)).Sendable ↔
      after.Sendable ∧ (payload.toList.length < n → next.Sendable) := by
  unfold Sendable
  rw [hstore, hrec, sendableIndexes_apply_iff h.2 hsound]

/-- The store that a failed call goes back to can be sent. -/
theorem sendable_undone {op : Op} {payload : Option Nat} {next undone : CommandStore}
    (hs : x.store.readOnly = false → x.store.Sound) (h : x.store.Sendable)
    (hplan : op.plan x.store = .write payload next undone) : undone.Sendable := by
  rcases op_change hs hplan with ⟨-, -, rfl⟩ | ⟨random, -, -, -, rfl⟩
  · exact h
  · exact sendable_of_empty rfl (Nat.one_lt_two_pow (by decide)) (Nat.one_lt_two_pow (by decide))

/-- **One event**: it leaves what can be sent exactly if it does not overflow. -/
theorem sendable_use_iff (hcfg : cfg.Sendable) (hx : Founded x) (h : x.Sendable) (e : DeviceEvent) :
    (x.use lands cfg e).Sendable ↔ ¬ x.Overflows lands cfg e := by
  cases e with
  | reboot config random =>
    exact iff_of_true (Sendable.boot lands hx.flash h.2 config random) not_false
  | action a =>
    cases hop : a.op cfg with
    | none =>
      rw [use_of_refused hop]
      refine iff_of_true h ?_
      rintro ⟨-, op, hsome, -⟩
      cases hop.symm.trans hsome
    | some op =>
      rw [use_of_op hop]
      cases hplan : op.plan x.store with
      | stop result =>
        rw [step_of_stop lands hplan]
        refine iff_of_true h ?_
        rintro ⟨-, op', hsome, hacc, -⟩
        obtain rfl := Option.some.inj (hop.symm.trans hsome)
        exact (refused_iff.mp ⟨result, hplan⟩) hacc
      | write payload next undone =>
        have hnext := sendable_next_iff hcfg hx.ram h.1 hop hplan
        have hsound := (op_next hx.ram hplan).1
        rw [overflows_of_write hop hplan]
        rcases run_cases lands hplan x.flash with ⟨hok, hstore, hrec⟩ |
          ⟨-, hstore, n, hn, hrec, hbefore, hfails⟩
        · have hlanded : ∀ i < payload.toList.length + 1, lands (x.flash.attempts + i) = true := by
            intro i hi
            refine lands_of_ok hplan hok i ?_
            cases payload with
            | none => exact Nat.lt_succ_of_lt hi
            | some slot => exact Nat.lt_succ_of_lt hi
          rw [← List.take_length (l := next.records payload)] at hrec
          rw [sendable_step_iff h hsound hstore hrec, and_iff_left hlanded, ← hnext]
          exact and_iff_left_of_imp fun hsendable _ => hsendable
        · -- the index is among the saves that landed exactly if all before it landed, and it did
          have hlanded : (∀ i < payload.toList.length + 1, lands (x.flash.attempts + i) = true) ↔
              payload.toList.length < n := by
            constructor
            · intro hall
              by_contra hle
              have hlands := hall n (by omega)
              rw [hfails] at hlands
              cases hlands
            · intro hlt i hi
              exact hbefore i (by omega)
          rw [sendable_step_iff h hsound hstore hrec, and_iff_right (sendable_undone hx.ram h.1 hplan),
            hlanded, not_and', ← hnext]

variable (lands cfg) in
/-- **What a device holds can be sent back to it, exactly as long as no event overflows.**  From the
    first boot on, with any saves failing, under any actions with any arguments and any reboots:
    at every moment every number in RAM and in the indexes on flash is below 2^31, and there are
    arguments that carry the registry, if and only if no accepted call whose index is saved had a
    negative next id, gap or frequency, and none took the last id that fits. -/
theorem sendable_run_iff (hcfg : cfg.Sendable) (config : Config) (random : Option BridgeId)
    (events : List DeviceEvent) :
    let x := Runs.moment (use lands cfg) (powerOn lands config random) events
    (∀ k ≤ events.length, (x k).Sendable ∧ (x k).store.Deliverable) ↔
      ∀ k event, events[k]? = some event → ¬ (x k).Overflows lands cfg event := by
  have hblank : SendableIndexes blank.records := by
    intro key t _ hget
    cases hget
  have hauthored : Authored blank.records := by
    intro key d hget
    cases hget
  intro x
  rw [← Runs.exact_iff (use lands cfg) (powerOn lands config random) events (I := Founded)
    (Founded.boot hauthored config random) (Sendable.boot lands hauthored hblank config random)
    fun y e _ hy hsendable => ⟨hy.use e, sendable_use_iff hcfg hy hsendable e⟩]
  exact forall₂_congr fun k _ => and_iff_left_of_imp fun h => h.1.deliverable

/-- A negative next id is adopted, and no argument can carry what is held then. -/
theorem negative_next_id_held :
    let x := use (fun _ => true) {} (powerOn (fun _ => true) ⟨2, 4, 300, 7⟩ none)
      (.action (.restoreBegin (utf8 BridgeId.zero.hex) (-1)))
    x.store.nextCommandId.toNat = 2 ^ 32 - 1 ∧ ¬ x.Sendable ∧ ¬ x.store.Deliverable := by
  intro x
  have hnext : x.store.nextCommandId.toNat = 2 ^ 32 - 1 := by decide +kernel
  refine ⟨hnext, fun h => ?_, fun h => ?_⟩
  · have hlt := h.1.nextCommandId
    omega
  · obtain ⟨arg, hint, -⟩ := h.nextCommandId
    have hbounds := toInt_bounds arg
    omega

/-- Under the default options, a device that has learned a command and has been reset. -/
theorem sendable_after_reset :
    let events : List DeviceEvent :=
      [.action (.learned (ascii "a") { candidate := [350, -1050] }), .action (.factoryReset none)]
    let x := Runs.moment (use (fun _ => true) {}) (powerOn (fun _ => true) ⟨2, 4, 300, 7⟩ none) events
    ∀ k ≤ events.length, (x k).Sendable ∧ (x k).store.Deliverable := by
  intro events x
  refine (sendable_run_iff (fun _ => true) {} ⟨by decide, by decide, by decide⟩ ⟨2, 4, 300, 7⟩ none
    events).mpr ?_
  intro k event hevent hover
  rcases k with _ | _ | k
  · obtain rfl := Option.some.inj hevent
    have hedge : (x 0).store.nextCommandId.toNat = 2 ^ 31 - 1 := hover.1.2
    exact absurd hedge (by decide +kernel)
  · obtain rfl := Option.some.inj hevent
    exact hover.1
  · cases hevent

end Session

end RfCloner
