/-
  What the replica of a worn device is short of.

  The listing shows what is in RAM.  The index on flash may name more: a `begin` leaves out the
  commands whose waveforms do not load, and a `put` whose header fails to be saved is rolled back in
  RAM while its index has landed.  Neither the revision nor the rows of the status tell, so a refresh
  takes the listing for the whole registry.  `Session.Intact` is what a step must not do, and
  `replica_complete` that nothing else can make a replica short.
-/
import RfCloner.System.Replica
import RfCloner.System.PayloadFault
import RfCloner.Store.Provenance
import RfCloner.Lib.Runs

namespace RfCloner

open FixedCodec StorageBackend CommandStore

/-- An event in the life of a device whose waveforms may be damaged. -/
inductive WearEvent
  | event (event : Event)
  /-- The record of a waveform becomes another one, or is lost. -/
  | corrupt (slot : UInt8) (data : Option Bytes)

/-- The device keeps its configuration. -/
def WearEvent.Under (cfg : Config) : WearEvent → Prop
  | .event e => e.Under (· = cfg)
  | .corrupt .. => True

namespace Session

variable (lands : Nat → Bool)

/-- One event. -/
def wear (x : Session) : WearEvent → Session
  | .event e => step lands x e
  | .corrupt slot data =>
    { x with
      flash := { x.flash with
        records := Function.update x.flash.records (x.store.config.payloadKey slot) data } }

/-- The device after the first `k` events. -/
def worn (x : Session) (events : List WearEvent) (k : Nat) : Session :=
  (events.take k).foldl (wear lands) x

/-! ## What the index names -/

/-- The index on flash names the command. -/
def IndexNames (x : Session) (id : UInt32) : Prop :=
  ∃ raw m, x.flash.records x.store.config.indexKey = some raw ∧ raw.length = indexBytesFor m ∧
    Named raw m id.toNat

/-- Every command the index names is in RAM. -/
def Complete (x : Session) : Prop :=
  ∀ id, x.IndexNames id → ∃ c ∈ x.store.commands, c.commandId = id

variable {lands} {x : Session} {t : CommandStore} {id : UInt32}

/-- The index of a store names its commands. -/
theorem indexNames_iff (ht : t.Sound)
    (hindex : x.flash.records x.store.config.indexKey = some t.indexRecord) :
    x.IndexNames id ↔ ∃ c ∈ t.commands, c.commandId = id := by
  constructor
  · rintro ⟨raw, m, hraw, hlen, i, hi, hnamed, hid⟩
    obtain rfl := Option.some.inj (hindex.symm.trans hraw)
    rw [length_indexRecord] at hlen
    obtain rfl := indexBytesFor_inj hlen
    rw [storedSlotAt_indexRecord t hi] at hnamed hid
    by_cases hocc : (t.slot i).occupied = true
    · refine ⟨t.slot i, slot_mem_commands hocc, ?_⟩
      rw [StoredSlot.ofCommand, if_pos hocc] at hid
      exact UInt32.toNat_inj.mp (Int.ofNat_inj.mp hid)
    · rw [StoredSlot.ofCommand, if_neg hocc] at hnamed
      exact absurd hnamed (by decide)
  · rintro ⟨c, hc, rfl⟩
    obtain ⟨i, rfl, hocc⟩ := SlotTable.mem_content.mp hc
    have hocc' : (t.slot i).occupied = true := hocc
    have hi : i < t.config.maxCommands.toNat := ht.sized ▸ lt_of_slot_occupied hocc'
    refine ⟨_, _, hindex, length_indexRecord t, i, hi, ?_, ?_⟩
    · rw [storedSlotAt_indexRecord t hi]
      exact ofCommand_named hocc' (ht.storable_slot i hocc')
    · rw [storedSlotAt_indexRecord t hi, StoredSlot.ofCommand, if_pos hocc']
      rfl

/-! ## The flash of a worn device -/

/-- The index is that of some sound store, and the header that of the configuration, once there is
    one.  Nothing is said of the waveforms. -/
structure Legible (cfg : Config) (x : Session) : Prop where
  config : x.store.config = cfg
  backend : x.store.backend = true
  sound : x.store.readOnly = false → x.store.Sound
  index : x.flash.records cfg.indexKey = none ∨ ∃ t : CommandStore, t.Sound ∧ t.config = cfg ∧
    x.flash.records cfg.indexKey = some t.indexRecord
  header : x.flash.records cfg.headerKey = none ∨
    x.flash.records cfg.headerKey = some (headerRecord cfg) ∧ x.flash.records cfg.indexKey ≠ none

/-- The listing is not short of the index, as far as it is taken for one: a restore is open, or every
    command the index names is in RAM. -/
def Shown (x : Session) : Prop := x.store.restoreState ≠ 0 ∨ x.Complete

variable (lands) in
/-- What a step must not do to the device.  A `put` of a new name must not fail once its index has
    landed, since it is rolled back in RAM; a factory reset, and a `begin` that finds no header, must
    not leave an index behind that names something; and a `begin` must find the waveform of every
    command, unless the index marks an open restore. -/
def Intact (x : Session) : WearEvent → Prop
  | .corrupt .. => True
  | .event (.op (.factoryReset random)) =>
    x.indexLands lands (.factoryReset random) = true ∨ ∀ id, ¬ x.IndexNames id
  | .event (.op op) =>
    x.store.learns op = true → x.indexLands lands op = true →
      (op.run (faulty lands) x.store x.flash).1 = .ok
  | .event (.reboot cfg _) =>
    (x.flash.records cfg.headerKey = none → lands x.flash.attempts = true ∨ ∀ id, ¬ x.IndexNames id) ∧
    (x.flash.records cfg.headerKey ≠ none → ∀ raw, x.flash.records cfg.indexKey = some raw →
      (storedMetaOf raw).restoreState ≠ 0 ∨ ∀ id, x.IndexNames id →
        Playable x.flash.records.load cfg raw cfg.maxCommands id.toNat)

/-! ## Operations -/

section Operations

variable {op : Op} {payload : Option Nat} {next undone : CommandStore}

/-- What a write adds to the ids, outside a restore, is the id of a command that was learned. -/
theorem commands_of_write (hreset : ∀ random, op ≠ .factoryReset random)
    (hplan : op.plan t = .write payload next undone) :
    t.restoreState ≠ 0 ∨ ∀ c ∈ next.commands, (∃ d ∈ t.commands, d.commandId = c.commandId) ∨
      t.learns op = true ∧ c.commandId = t.nextCommandId := by
  have hplain : (Event.op op).Plain t.config → t.restoreState ≠ 0 ∨
      ∀ c ∈ next.commands, (∃ d ∈ t.commands, d.commandId = c.commandId) ∨
        t.learns op = true ∧ c.commandId = t.nextCommandId := fun h =>
    Or.inr (commands_of_plain_write h hplan)
  cases op with
  | put c | rename id name | remove name | removeById id | clearAll => exact hplain trivial
  | factoryReset random => exact absurd rfl (hreset random)
  | restoreBegin bridgeId id =>
    obtain ⟨-, -, -, -, rev, -, -, rfl, -⟩ := restoreBeginPlan_eq_write hplan
    exact Or.inr fun c hc => Or.inl ⟨c, hc, rfl⟩
  | importCommand c =>
    obtain ⟨-, -, hopen, -⟩ := importCommandPlan_eq_write hplan
    exact Or.inl hopen
  | restoreCommit source =>
    obtain ⟨-, -, hopen, -⟩ := restoreCommitPlan_eq_write hplan
    exact Or.inl hopen

/-- A learned command is in what is written, under an id that was not there. -/
theorem learned_of_write (hs : t.Sound) (hn : next.Sound) (hlearns : t.learns op = true)
    (hplan : op.plan t = .write payload next undone) :
    t.restoreState = 0 ∧ (∃ c ∈ next.commands, c.commandId = t.nextCommandId) ∧
      ∀ d ∈ t.commands, d.commandId ≠ t.nextCommandId := by
  cases op with
  | put c =>
    have hnew : t.has c.name = false := by
      unfold learns at hlearns
      simpa using hlearns
    refine ⟨(writable_eq_ok (putPlan_eq_write hplan).1).2.2, ?_, ?_⟩
    · have hget := get_putPlan_new hs hn hplan hnew
      unfold CommandStore.get at hget
      obtain ⟨slot, hslot, hc⟩ := Option.map_eq_some_iff.mp hget
      refine ⟨_, slot_mem_commands (findSlot_eq_some hslot).1, ?_⟩
      rw [hc]
    · intro d hd heq
      exact UInt32.lt_irrefl _ (heq ▸ hs.id_lt d hd)
  | rename id name | remove name | removeById id | clearAll | factoryReset random
  | restoreBegin bridgeId id | importCommand c | restoreCommit source => cases hlearns

end Operations

section Steps

variable {cfg : Config}

theorem intact_op_iff {op : Op} (hreset : ∀ random, op ≠ .factoryReset random) :
    x.Intact lands (.event (.op op)) ↔ (x.store.learns op = true → x.indexLands lands op = true →
      (op.run (faulty lands) x.store x.flash).1 = .ok) := by
  cases op with
  | factoryReset random => exact absurd rfl (hreset random)
  | put c | rename id name | remove name | removeById id | clearAll | restoreBegin bridgeId id
  | importCommand c | restoreCommit source => exact Iff.rfl

/-- The index names what it did as long as it is the same record. -/
theorem indexNames_congr {y : Session}
    (h : y.flash.records y.store.config.indexKey = x.flash.records x.store.config.indexKey) :
    y.IndexNames id ↔ x.IndexNames id := by
  unfold IndexNames
  rw [h]

/-- A store whose own index is on flash is complete. -/
theorem complete_of_index (hs : x.store.Sound)
    (hindex : x.flash.records x.store.config.indexKey = some x.store.indexRecord) : x.Complete :=
  fun _ hnames => (indexNames_iff hs hindex).mp hnames

/-- Without commands in RAM, and with no restore open, nothing may be named. -/
theorem shown_of_empty (hclosed : x.store.restoreState = 0) (hempty : x.store.commands = []) :
    x.Shown ↔ ∀ id, ¬ x.IndexNames id := by
  unfold Shown Complete
  rw [hclosed, hempty]
  simp

/-- **An index that lands although the operation fails** names what was to be written: the listing is
    short of it exactly if that is a command under a new name. -/
theorem shown_of_failed {op : Op} {payload : Option Nat} {next undone : CommandStore} {y : Session}
    (hs : x.store.Sound) (hnext : next.Sound) (hreset : ∀ random, op ≠ .factoryReset random)
    (hplan : op.plan x.store = .write payload next undone) (hstore : y.store = x.store)
    (hnames : ∀ id, y.IndexNames id ↔ ∃ c ∈ next.commands, c.commandId = id) :
    y.Shown ↔ x.store.learns op = false := by
  unfold Shown Complete
  rw [hstore]
  cases hlearns : x.store.learns op with
  | true =>
    -- the new command is named, and not in RAM
    obtain ⟨hclosed, ⟨c, hc, hcid⟩, hfresh⟩ := learned_of_write hs hnext hlearns hplan
    refine iff_of_false ?_ fun h => nomatch h
    rintro (hopen | hcomplete)
    · exact hopen hclosed
    · obtain ⟨d, hd, hdid⟩ := hcomplete _ ((hnames _).mpr ⟨c, hc, hcid⟩)
      exact hfresh d hd hdid
  | false =>
    refine iff_of_true ?_ rfl
    refine (commands_of_write hreset hplan).imp_right fun hcommands id hid => ?_
    obtain ⟨c, hc, rfl⟩ := (hnames id).mp hid
    rcases hcommands c hc with hold | ⟨hnew, -⟩
    · exact hold
    · rw [hlearns] at hnew
      cases hnew

/-- After a write that lands, the index is that of what is in RAM. -/
theorem Legible.landed {next : CommandStore} {y : Session} (hnext : next.Sound)
    (hcfg : next.config = cfg) (hbackend : next.backend = true) (hstore : y.store = next)
    (hheader : y.flash.records cfg.headerKey = some (headerRecord cfg))
    (hindex : y.flash.records cfg.indexKey = some next.indexRecord) : Legible cfg y ∧ y.Shown := by
  subst hstore
  refine ⟨⟨hcfg, hbackend, fun _ => hnext, Or.inr ⟨y.store, hnext, hcfg, hindex⟩,
    Or.inr ⟨hheader, by rw [hindex]; exact Option.some_ne_none _⟩⟩, ?_⟩
  refine Or.inr (complete_of_index hnext ?_)
  rw [hcfg]
  exact hindex

/-- A write that fails may have landed its index, over a header that stays. -/
theorem Legible.failed (h : Legible cfg x) {next : CommandStore} {y : Session} {landed : Bool}
    (hnext : next.Sound) (hcfg : next.config = cfg) (hconfig : y.store.config = cfg)
    (hbackend : y.store.backend = true) (hsound : y.store.readOnly = false → y.store.Sound)
    (hheader : y.flash.records cfg.headerKey = x.flash.records cfg.headerKey)
    (hindex : y.flash.records cfg.indexKey
      = if landed then some next.indexRecord else x.flash.records cfg.indexKey) :
    Legible cfg y := by
  refine ⟨hconfig, hbackend, hsound, ?_, ?_⟩ <;> rw [hindex]
  · cases landed with
    | false => exact h.index
    | true => exact Or.inr ⟨next, hnext, hcfg, rfl⟩
  · rw [hheader]
    cases landed with
    | false => exact h.header
    | true => exact h.header.imp_right fun hold => ⟨hold.1, Option.some_ne_none _⟩

/-- **An operation that learns, renames, deletes, clears or restores.** -/
theorem Legible.op (h : Legible cfg x) (hshown : x.Shown) {op : Op}
    (hreset : ∀ random, op ≠ .factoryReset random) :
    Legible cfg (x.wear lands (.event (.op op))) ∧
    ((x.wear lands (.event (.op op))).Shown ↔ x.Intact lands (.event (.op op))) := by
  rw [intact_op_iff hreset]
  cases hplan : op.plan x.store with
  | stop result =>
    have hstep : x.wear lands (.event (.op op)) = x := step_of_stop lands hplan
    have hlands : x.indexLands lands op = false := by rw [indexLands, hplan]
    rw [hstep, hlands]
    exact ⟨h, iff_of_true hshown fun _ hfalse => absurd hfalse Bool.false_ne_true⟩
  | write payload next undone =>
    obtain ⟨hnext, hconfig, hbackend⟩ := op_next h.sound hplan
    obtain ⟨hwritable, -, hundone⟩ := (op_change h.sound hplan).resolve_right (by
      rintro ⟨random, hop, -⟩
      exact hreset random hop)
    have hcfg : next.config = cfg := hconfig.trans h.config
    have hout := records_of_write lands hplan
    rw [hcfg, hundone] at hout
    rcases hout with ⟨hok, hstore, hlands, hheader, hindex⟩ | ⟨hfail, hstore, hheader, hindex⟩
    · obtain ⟨hlegible, hshown'⟩ := Legible.landed (y := x.wear lands (.event (.op op))) hnext hcfg
        (hbackend.trans h.backend) hstore hheader hindex
      exact ⟨hlegible, iff_of_true hshown' fun _ _ => hok⟩
    · -- something failed: RAM is as it was, and the index may be that of `next`
      have hstore' : (x.wear lands (.event (.op op))).store = x.store := hstore
      have hconfig' : (x.wear lands (.event (.op op))).store.config = cfg := hstore' ▸ h.config
      refine ⟨h.failed hnext hcfg hconfig' (hstore' ▸ h.backend) (hstore' ▸ h.sound) hheader hindex, ?_⟩
      cases hlands : x.indexLands lands op with
      | false =>
        rw [hlands, if_neg Bool.false_ne_true] at hindex
        refine iff_of_true ?_ fun _ hfalse => absurd hfalse Bool.false_ne_true
        unfold Shown Complete
        rw [hstore']
        refine hshown.imp_right fun hcomplete id hnames => hcomplete id ?_
        refine (indexNames_congr ?_).mp hnames
        rw [hconfig', h.config]
        exact hindex
      | true =>
        rw [hlands, if_pos rfl] at hindex
        have hnames (id : UInt32) : (x.wear lands (.event (.op op))).IndexNames id ↔
            ∃ c ∈ next.commands, c.commandId = id := by
          refine indexNames_iff hnext ?_
          rw [hconfig']
          exact hindex
        rw [shown_of_failed (h.sound hwritable) hnext hreset hplan hstore' hnames]
        constructor
        · intro hlearns hnew
          rw [hlearns] at hnew
          cases hnew
        · exact fun hok => Bool.eq_false_iff.mpr fun hlearns => hfail (hok hlearns rfl)

/-- **A factory reset.** -/
theorem Legible.factoryReset (h : Legible cfg x) (random : Option BridgeId) :
    Legible cfg (x.wear lands (.event (.op (.factoryReset random)))) ∧
    ((x.wear lands (.event (.op (.factoryReset random)))).Shown ↔
      x.Intact lands (.event (.op (.factoryReset random)))) := by
  have hempty : (x.store.resetStore random).commands = [] := SlotTable.content_replicate _
  have hplan : (Op.factoryReset random).plan x.store
      = .write none (x.store.resetStore random).resume (x.store.resetStore random) := by
    refine if_neg ?_
    rw [h.backend]
    exact Bool.false_ne_true
  have hreset := resetStore_sound x.store random
  have hcfg : (x.store.resetStore random).resume.config = cfg := h.config
  have hout := records_of_write lands hplan
  rw [hcfg] at hout
  rcases hout with ⟨hok, hstore, hlands, hheader, hindex⟩ | ⟨-, hstore, hheader, hindex⟩
  · obtain ⟨hlegible, hshown⟩ :=
      Legible.landed (y := x.wear lands (.event (.op (.factoryReset random)))) hreset.resume hcfg
        h.backend hstore hheader hindex
    exact ⟨hlegible, iff_of_true hshown (Or.inl hlands)⟩
  · have hstore' : (x.wear lands (.event (.op (.factoryReset random)))).store
        = x.store.resetStore random := hstore
    have hconfig : (x.wear lands (.event (.op (.factoryReset random)))).store.config = cfg := by
      rw [hstore']
      exact h.config
    have hshown : (x.wear lands (.event (.op (.factoryReset random)))).Shown ↔
        ∀ id, ¬ (x.wear lands (.event (.op (.factoryReset random)))).IndexNames id :=
      shown_of_empty (by rw [hstore']; rfl) (by rw [hstore', hempty])
    refine ⟨h.failed hreset.resume hcfg hconfig (by rw [hstore']; exact h.backend)
      (fun _ => hstore' ▸ hreset) hheader hindex, ?_⟩
    rw [hshown]
    cases hlands : x.indexLands lands (.factoryReset random) with
    | true =>
      rw [hlands, if_pos rfl] at hindex
      refine iff_of_true (fun id hnames => ?_) (Or.inl hlands)
      obtain ⟨c, hc, -⟩ := (indexNames_iff hreset.resume (by rw [hconfig]; exact hindex)).mp hnames
      have hnone : (x.store.resetStore random).resume.commands = [] := hempty
      rw [hnone] at hc
      cases hc
    | false =>
      rw [hlands, if_neg Bool.false_ne_true] at hindex
      have hnames (id : UInt32) :
          (x.wear lands (.event (.op (.factoryReset random)))).IndexNames id ↔ x.IndexNames id := by
        refine indexNames_congr ?_
        rw [hconfig, h.config]
        exact hindex
      show _ ↔ x.indexLands lands (.factoryReset random) = true ∨ _
      rw [hlands]
      simp [hnames]

variable (lands) in
/-- **Damage to a waveform** is not seen until the next `begin`. -/
theorem Legible.corrupt (h : Legible cfg x) (hshown : x.Shown) (slot : UInt8)
    (data : Option Bytes) :
    Legible cfg (x.wear lands (.corrupt slot data)) ∧ (x.wear lands (.corrupt slot data)).Shown := by
  have hindex : (x.wear lands (.corrupt slot data)).flash.records cfg.indexKey
      = x.flash.records cfg.indexKey := by
    refine Function.update_of_ne ?_ _ _
    rw [h.config]
    exact (cfg.payloadKey_ne_indexKey slot).symm
  have hheader : (x.wear lands (.corrupt slot data)).flash.records cfg.headerKey
      = x.flash.records cfg.headerKey := by
    refine Function.update_of_ne ?_ _ _
    rw [h.config]
    exact (cfg.payloadKey_ne_headerKey slot).symm
  refine ⟨⟨h.config, h.backend, h.sound, by rw [hindex]; exact h.index,
    by rw [hheader, hindex]; exact h.header⟩, hshown.imp_right fun hcomplete id hnames => ?_⟩
  refine hcomplete id ((indexNames_congr ?_).mp hnames)
  show (x.wear lands (.corrupt slot data)).flash.records x.store.config.indexKey = _
  rw [h.config]
  exact hindex

/-- What has landed of an index, and of its header. -/
theorem saveAll_indexRecords (lands : Nat → Bool) (s : CommandStore) (flash : Fake UInt32) :
    let records := ((faulty lands).saveAll s.indexRecords flash).2.records
    lands flash.attempts = true ∧ records s.config.indexKey = some s.indexRecord ∧
        (records s.config.headerKey = flash.records s.config.headerKey ∨
          records s.config.headerKey = some (headerRecord s.config)) ∨
      lands flash.attempts = false ∧ records = flash.records := by
  intro records
  obtain ⟨n, -, hrec, hok, hfail, hbefore⟩ := saveAll_faulty lands s.indexRecords flash
  have hrecords : records = flash.records.apply (s.indexRecords.take n) := hrec
  rcases n with _ | _ | n
  · -- not even the index has landed
    right
    cases hresult : ((faulty lands).saveAll s.indexRecords flash).1 with
    | true => cases hok hresult
    | false => exact ⟨(hfail hresult).2, hrecords⟩
  · left
    have hone : records = flash.records.save s.config.indexKey s.indexRecord := hrecords
    refine ⟨hbefore 0 (by omega), ?_, Or.inl ?_⟩
    · rw [hone, Records.save_self]
    · rw [hone, Records.save_of_ne s.config.headerKey_ne_indexKey]
  · left
    have hall : s.indexRecords.take (n + 1 + 1) = s.indexRecords := List.take_of_length_le (by
      show 2 ≤ n + 1 + 1
      omega)
    rw [hall] at hrecords
    refine ⟨hbefore 0 (by omega), ?_, Or.inr ?_⟩
    · rw [hrecords, apply_indexRecords_index]
    · rw [hrecords, apply_indexRecords_header]

variable (lands) in
/-- Booting without a header: what has landed of the new index, and of its header. -/
theorem boot_unwritten {flash : Fake UInt32} (hheader : flash.records cfg.headerKey = none)
    (random : Option BridgeId) :
    (boot lands cfg random flash).store = (configure cfg).mintIdentity random ∧
    (boot lands cfg random flash).flash.records = ((faulty lands).saveAll
      ((configure cfg).mintIdentity random).indexRecords flash).2.records := by
  have hload : (faulty lands).load cfg.headerKey StoredHeader.codec.width flash = none := by
    show flash.records.load cfg.headerKey StoredHeader.codec.width = none
    rw [Records.load, hheader]
    rfl
  have hboot := boot_of_no_header cfg (faulty lands) flash random hload
  rw [← writeIndex_eq_saveAll]
  exact ⟨congrArg (fun out => out.2.1) hboot, congrArg (fun out => out.2.2.records) hboot⟩

variable (lands) in
/-- Booting without a header. -/
theorem legible_boot_unwritten {flash : Fake UInt32} (hheader : flash.records cfg.headerKey = none)
    (hindex : flash.records cfg.indexKey = none ∨ ∃ t : CommandStore, t.Sound ∧ t.config = cfg ∧
      flash.records cfg.indexKey = some t.indexRecord) (random : Option BridgeId) :
    let y := boot lands cfg random flash
    Legible cfg y ∧ (y.Shown ↔ lands flash.attempts = true ∨
      ∀ id raw m, flash.records cfg.indexKey = some raw → raw.length = indexBytesFor m →
        ¬ Named raw m (id : UInt32).toNat) := by
  intro y
  have hmint := mint_sound cfg random
  obtain ⟨hstore, hwritten⟩ := boot_unwritten lands hheader random
  have hstore' : y.store = (configure cfg).mintIdentity random := hstore
  have hflash := saveAll_indexRecords lands ((configure cfg).mintIdentity random) flash
  dsimp only at hflash
  rw [← hwritten, show ((configure cfg).mintIdentity random).config = cfg from rfl, hheader] at hflash
  have hempty : y.store.commands = [] := by
    rw [hstore']
    exact SlotTable.content_replicate _
  have hconfig : y.store.config = cfg := by rw [hstore']; rfl
  have hshown : y.Shown ↔ ∀ id, ¬ y.IndexNames id := shown_of_empty (by rw [hstore']; rfl) hempty
  rw [hshown]
  rcases hflash with ⟨hlands, hnew, hnewheader⟩ | ⟨hlost, hsame⟩
  · refine ⟨⟨hconfig, by rw [hstore']; rfl, fun _ => hstore' ▸ hmint,
      Or.inr ⟨_, hmint, rfl, hnew⟩, hnewheader.imp_right fun hh => ⟨hh, ?_⟩⟩, ?_⟩
    · rw [hnew]
      exact Option.some_ne_none _
    · refine iff_of_true (fun id hnames => ?_) (Or.inl hlands)
      obtain ⟨c, hc, -⟩ := (indexNames_iff hmint (by rw [hconfig]; exact hnew)).mp hnames
      rw [← hstore', hempty] at hc
      cases hc
  · have hrecords : y.flash.records = flash.records := hsame
    refine ⟨⟨hconfig, by rw [hstore']; rfl, fun _ => hstore' ▸ hmint,
      by rw [hrecords]; exact hindex, by rw [hrecords]; exact Or.inl hheader⟩, ?_⟩
    rw [hlost]
    unfold IndexNames
    rw [hconfig, hrecords]
    simp only [Bool.false_eq_true, false_or, not_exists, not_and]

/-- **A reboot.** -/
theorem Legible.reboot (h : Legible cfg x) (hpos : cfg.maxCommands ≠ 0) (random : Option BridgeId) :
    Legible cfg (x.wear lands (.event (.reboot cfg random))) ∧
    ((x.wear lands (.event (.reboot cfg random))).Shown ↔
      x.Intact lands (.event (.reboot cfg random))) := by
  by_cases hheader : x.flash.records cfg.headerKey = none
  · obtain ⟨hlegible, hshown⟩ := legible_boot_unwritten lands hheader h.index random
    refine ⟨hlegible, hshown.trans ?_⟩
    have hnames : (∀ id, ¬ x.IndexNames id) ↔ ∀ id raw m, x.flash.records cfg.indexKey = some raw →
        raw.length = indexBytesFor m → ¬ Named raw m (id : UInt32).toNat := by
      unfold IndexNames
      rw [h.config]
      simp only [not_exists, not_and]
    rw [← hnames]
    exact ⟨fun hor => ⟨fun _ => hor, fun hne => absurd hheader hne⟩, fun hintact => hintact.1 hheader⟩
  · obtain ⟨hwritten, hindex⟩ := h.header.resolve_left hheader
    obtain ⟨t, ht, rfl, hraw⟩ := h.index.resolve_left hindex
    obtain ⟨ro, fault, hboot⟩ := boot_indexed_eq lands hpos hwritten hraw random
    have hwear : x.wear lands (.event (.reboot t.config random)) = _ := hboot
    have hreload : Reloads x.flash.records t
        (decoded x.flash.records.load t.config t.config.maxCommands t.indexRecord) :=
      reloads_decoded ht.toWellFormed
    have hnames (id : UInt32) :
        (x.wear lands (.event (.reboot t.config random))).IndexNames id ↔ x.IndexNames id := by
      refine indexNames_congr ?_
      rw [hwear, h.config]
      rfl
    refine ⟨?_, ?_⟩
    · rw [hwear]
      exact ⟨rfl, rfl, fun _ => { hreload.sound ht with }, Or.inr ⟨t, ht, rfl, hraw⟩,
        Or.inr ⟨hwritten, hindex⟩⟩
    · have hshown : (x.wear lands (.event (.reboot t.config random))).Shown ↔
          (storedMetaOf t.indexRecord).restoreState ≠ 0 ∨ ∀ id : UInt32, x.IndexNames id →
            Playable x.flash.records.load t.config t.indexRecord t.config.maxCommands id.toNat := by
        unfold Shown Complete
        simp only [hnames]
        rw [hwear]
        refine or_congr Iff.rfl (forall_congr' fun id => imp_congr_right fun _ => ?_)
        rw [← mem_commands_decoded]
        refine exists_congr fun c => and_congr Iff.rfl ?_
        rw [← UInt32.toNat_inj, Int.ofNat_inj]
      rw [hshown]
      constructor
      · intro hor
        refine ⟨fun hnone => absurd hnone hheader, fun _ raw hraw' => ?_⟩
        obtain rfl := Option.some.inj (hraw.symm.trans hraw')
        exact hor
      · intro hintact
        exact hintact.2 hheader _ hraw

/-! ## Runs -/

/-- **One event.** -/
theorem Legible.wear (h : Legible cfg x) (hpos : cfg.maxCommands ≠ 0) (hshown : x.Shown)
    {e : WearEvent} (hunder : e.Under cfg) :
    Legible cfg (x.wear lands e) ∧ ((x.wear lands e).Shown ↔ x.Intact lands e) := by
  cases e with
  | corrupt slot data =>
    obtain ⟨hlegible, hshown'⟩ := h.corrupt lands hshown slot data
    exact ⟨hlegible, iff_of_true hshown' trivial⟩
  | event e =>
    cases e with
    | op op =>
      by_cases hreset : ∃ random, op = .factoryReset random
      · obtain ⟨random, rfl⟩ := hreset
        exact h.factoryReset random
      · push Not at hreset
        exact h.op hshown hreset
    | reboot config random =>
      obtain rfl : config = cfg := hunder
      exact h.reboot hpos random

variable (lands) in
theorem legible_powerOn (cfg : Config) (random : Option BridgeId) :
    Legible cfg (powerOn lands cfg random) ∧ (powerOn lands cfg random).Shown := by
  obtain ⟨hlegible, hshown⟩ :=
    legible_boot_unwritten lands (show blank.records cfg.headerKey = none from rfl) (Or.inl rfl) random
  exact ⟨hlegible, hshown.mpr (Or.inr fun _ _ _ hraw => nomatch hraw)⟩

/-- **The listing is whole throughout a run exactly if every step keeps the device intact.**
    What is legible on flash is the invariant. -/
theorem shown_iff (hpos : cfg.maxCommands ≠ 0) (random : Option BridgeId) {events : List WearEvent}
    (hevents : ∀ e ∈ events, e.Under cfg) :
    let start := powerOn lands cfg random
    (∀ k ≤ events.length, (start.worn lands events k).Shown) ↔
    ∀ k e, events[k]? = some e → (start.worn lands events k).Intact lands e := by
  intro start
  obtain ⟨hstart, hfirst⟩ := legible_powerOn lands cfg random
  exact Runs.exact_iff (wear lands) start events hstart hfirst fun x e he hlegible hshown =>
    hlegible.wear hpos hshown (hevents e he)

end Steps

/-! ## The replica -/

/-- A refresh on the status of the device, with exports that it answers itself, stores no replica
    that is short of a command the index names. -/
def Faithful (x : Session) : Prop :=
  ∀ (lastResult : Bytes) (w : Wire) (reached : Nat → Bool) (m : SnapshotManager) (now : Timestamp),
    let device : Cloner := ⟨x.store, lastResult⟩
    let m' := m.asyncRefresh device.rfStatus now (exportsOf w (fun _ => device) reached)
    m.bridgeId = device.rfStatus.bridgeId → m' ≠ m →
      ∃ s, m'.snapshot = some s ∧ ∀ id, x.IndexNames id → ∃ e ∈ s.commands, e.commandId = id.toNat

/-- What is exported under the id of a command has that id. -/
theorem commandId_of_exportOf {c : Cloner} {id : UInt32} {e : ExportedCommand}
    (h : c.exportOf id = some e) : e.commandId = id.toNat := by
  unfold Cloner.exportOf at h
  obtain ⟨command, hget, rfl⟩ := Option.map_eq_some_iff.mp h
  unfold getById at hget
  obtain ⟨slot, hslot, rfl⟩ := Option.map_eq_some_iff.mp hget
  show ((c.store.slot slot).commandId.toNat : Int) = _
  rw [(findSlotById_eq_some hslot).2]

/-- While the listing is whole, so is the replica. -/
theorem Shown.faithful (h : x.Shown) : x.Faithful := by
  intro lastResult w reached m now device m' _ hne
  rcases SnapshotManager.asyncRefresh_cases m device.rfStatus now
      (exportsOf w (fun _ => device) reached) with ⟨hsame, -⟩ | ⟨commands, hreplaces, hnew⟩
  · exact absurd hsame hne
  · refine ⟨_, congrArg SnapshotManager.snapshot hnew, fun id hnames => ?_⟩
    obtain ⟨hconsiders, -, hcalls⟩ := replaces_rfStatus.mp hreplaces
    have hclosed : x.store.restoreState = 0 :=
      device.restoreIncomplete_rfStatus.mp hconsiders.complete
    obtain ⟨c, hc, rfl⟩ := h.resolve_left (not_not_intro hclosed) id hnames
    obtain ⟨k, hk⟩ := List.mem_iff_getElem?.mp hc
    obtain ⟨-, -, hexport⟩ := hcalls k c hk
    rw [Cloner.exportOf_listed hk] at hexport
    have hlt : k < device.portable.length := by
      unfold Cloner.portable
      rw [List.length_map]
      exact (List.getElem?_eq_some_iff.mp hk).1
    rw [List.getElem?_eq_getElem hlt] at hexport
    refine ⟨device.portable[k], List.mem_of_getElem? hexport.symm, commandId_of_exportOf (c := device) ?_⟩
    rw [Cloner.exportOf_listed hk, List.getElem?_eq_getElem hlt]

/-- **The replica is never short of the index** in a run whose every step keeps the device intact:
    no `put` of a new name fails once its index has landed, no factory reset and no `begin` without a
    header leaves an index behind that names something, and every `begin` finds the waveform of each
    command the index names, or the index marks an open restore.  Saves may fail in any pattern
    otherwise, and waveforms may be damaged at any time. -/
theorem replica_complete {cfg : Config} (hpos : cfg.maxCommands ≠ 0) (lands : Nat → Bool)
    (random : Option BridgeId) {events : List WearEvent} (hevents : ∀ e ∈ events, e.Under cfg)
    (hintact : ∀ k e, events[k]? = some e →
      ((powerOn lands cfg random).worn lands events k).Intact lands e) :
    ∀ k ≤ events.length, ((powerOn lands cfg random).worn lands events k).Faithful :=
  fun k hk => ((shown_iff hpos random hevents).mpr hintact k hk).faithful

/-! ## A lost waveform -/

/-- Without the record of its one waveform a device boots with no command. -/
theorem commands_decoded_of_lost {r : Records UInt32} {raw : Bytes} {cfg : Config} {m : UInt8}
    (hone : m = 1) (hlost : r (cfg.payloadKey 0) = none) :
    (decoded r.load cfg m raw).commands = [] := by
  subst hone
  rw [List.eq_nil_iff_forall_not_mem]
  intro c hc
  obtain ⟨i, hi, -, -, -, hwave⟩ := mem_commands_decoded.mp ⟨c, hc, rfl⟩
  obtain rfl : i = 0 := Nat.lt_one_iff.mp hi
  have hload : r.load (cfg.payloadKey (UInt8.ofNat 0))
      ((storedSlotAt raw 0).pulseCount.toNat * sle32.width) = none := by
    rw [Records.load, show UInt8.ofNat 0 = 0 from rfl, hlost]
    rfl
  rw [StoredSlot.waveform, hload] at hwave
  cases hwave

/-- A device of one slot that loses its waveform and reboots: the listing is empty, and the index
    names what it did. -/
theorem Settled.lose {cfg : Config} {x : Session} (h : Settled cfg x) (lands : Nat → Bool)
    (hone : cfg.maxCommands = 1) (random : Option BridgeId) :
    let y := (x.wear lands (.corrupt 0 none)).wear lands (.event (.reboot cfg random))
    y.store.commands = [] ∧ y.store.revision = x.store.revision ∧
      y.store.restoreState = x.store.restoreState ∧
      ∀ id, y.IndexNames id ↔ ∃ c ∈ x.store.commands, c.commandId = id := by
  intro y
  obtain ⟨rfl, -, -, -, hsound, hholds⟩ := h
  let r : Records UInt32 := Function.update x.flash.records (x.store.config.payloadKey 0) none
  have hheader : r x.store.config.headerKey = some (headerRecord x.store.config) :=
    (Function.update_of_ne (Config.payloadKey_ne_headerKey _ 0).symm _ _).trans hholds.header
  have hindex : r x.store.config.indexKey = some x.store.indexRecord :=
    (Function.update_of_ne (Config.payloadKey_ne_indexKey _ 0).symm _ _).trans hholds.index
  have hlost : r (x.store.config.payloadKey 0) = none := Function.update_self ..
  have hpos : x.store.config.maxCommands ≠ 0 := by
    rw [hone]
    decide
  have hreload : Reloads r x.store (decoded r.load x.store.config x.store.config.maxCommands
      x.store.indexRecord) := reloads_decoded hsound.toWellFormed
  obtain ⟨ro, fault, hboot⟩ := boot_indexed_eq lands hpos
    (show ({ x.flash with records := r } : Fake UInt32).records _ = _ from hheader) hindex random
  have hy : y = _ := hboot
  rw [hy]
  exact ⟨commands_decoded_of_lost hone hlost, hreload.revision, hreload.restoreState,
    fun id => indexNames_iff hsound hindex⟩

/-- A command is learned and renamed, its waveform is lost, and the device reboots. -/
def wornOut : List WearEvent :=
  [.event (.op (.put { name := ascii "on", timings := [350, -1050] })),
    .event (.op (.rename 1 (ascii "off"))), .corrupt 0 none, .event (.reboot ⟨1, 4, 200, 7⟩ none)]

/-- The device before its waveform is lost. -/
def beforeLoss : Session := (powerOn (fun _ => true) ⟨1, 4, 200, 7⟩ none).worn (fun _ => true) wornOut 2

theorem settled_beforeLoss : Settled ⟨1, 4, 200, 7⟩ beforeLoss :=
  have hpos : (⟨1, 4, 200, 7⟩ : Config).maxCommands ≠ 0 := by decide
  have hput := ((Settled.powerOn ⟨1, 4, 200, 7⟩ none).op hpos
    (show ∀ random, Op.put { name := ascii "on", timings := [350, -1050] } ≠ .factoryReset random
      from fun _ h => nomatch h)).1
  (hput.op hpos (show ∀ random, Op.rename 1 (ascii "off") ≠ .factoryReset random
    from fun _ h => nomatch h)).1

/-- A replica of another revision is replaced by an empty one when nothing is listed. -/
theorem asyncRefresh_of_empty {x : Session} (hempty : x.store.commands = [])
    (hclosed : x.store.restoreState = 0) (lastResult : Bytes) {s : Snapshot}
    (hrevision : s.revision ≠ x.store.revision.toNat) (now : Timestamp)
    (answers : Nat → Int → ExportResult) :
    let device : Cloner := ⟨x.store, lastResult⟩
    (SnapshotManager.asyncRefresh ⟨device.rfStatus.bridgeId, some s⟩ device.rfStatus now
      answers).snapshot.map Snapshot.commands = some [] := by
  intro device
  have hconsiders : SnapshotManager.Considers ⟨device.rfStatus.bridgeId, some s⟩ device.rfStatus := by
    refine ⟨rfl, device.restoreIncomplete_rfStatus.mpr hclosed, ?_⟩
    rintro current hcurrent ⟨-, hsame⟩
    obtain rfl := Option.some.inj hcurrent
    exact hrevision hsame
  rw [SnapshotManager.asyncRefresh_of_considers hconsiders, Cloner.commands_rfStatus, hempty]
  rfl

/-- An empty replica is short of anything the index names. -/
theorem not_faithful_of_empty {x : Session} (hempty : x.store.commands = [])
    (hclosed : x.store.restoreState = 0) {id : UInt32} (hnames : x.IndexNames id) {s : Snapshot}
    (hrevision : s.revision ≠ x.store.revision.toNat) (hfull : s.commands ≠ []) : ¬ x.Faithful := by
  intro hfaithful
  let device : Cloner := ⟨x.store, []⟩
  have hnew := asyncRefresh_of_empty hempty hclosed [] hrevision 0
    (exportsOf Wire.exact (fun _ => device) fun _ => true)
  dsimp only at hnew
  obtain ⟨snapshot, hsnapshot, hall⟩ := hfaithful [] Wire.exact (fun _ => true)
    ⟨device.rfStatus.bridgeId, some s⟩ 0 rfl (fun hsame => by
      rw [hsame] at hnew
      exact hfull (Option.some.inj hnew))
  rw [hsnapshot] at hnew
  obtain ⟨e, he, -⟩ := hall id hnames
  rw [Option.some.inj hnew] at he
  cases he

/-- **A complete replica is replaced by an empty one.**  The replica was taken between the learn and
    the rename, and the index on flash still names the command. -/
theorem lost_waveform_unfaithful :
    let x := (powerOn (fun _ => true) ⟨1, 4, 200, 7⟩ none).worn (fun _ => true) wornOut 4
    let device : Cloner := ⟨x.store, []⟩
    let m : SnapshotManager := ⟨device.rfStatus.bridgeId, some ⟨device.rfStatus.bridgeId, 2, 2, 0,
      [⟨1, device.rfStatus.bridgeId, 1, str "on", 0, 0, 0, 0, [350, -1050]⟩]⟩⟩
    let m' := m.asyncRefresh device.rfStatus 1 (exportsOf Wire.exact (fun _ => device) fun _ => true)
    x.IndexNames 1 ∧ m'.snapshot.map Snapshot.commands = some [] ∧ ¬ x.Faithful := by
  have hthree : (powerOn (fun _ => true) ⟨1, 4, 200, 7⟩ none).worn (fun _ => true) wornOut 3
      = beforeLoss.wear (fun _ => true) (.corrupt 0 none) := Runs.moment_succ rfl
  have hfour : (powerOn (fun _ => true) ⟨1, 4, 200, 7⟩ none).worn (fun _ => true) wornOut 4
      = (beforeLoss.wear (fun _ => true) (.corrupt 0 none)).wear (fun _ => true)
        (.event (.reboot ⟨1, 4, 200, 7⟩ none)) :=
    (Runs.moment_succ rfl).trans
      (congrArg (fun x => x.wear (fun _ => true) (.event (.reboot ⟨1, 4, 200, 7⟩ none))) hthree)
  obtain ⟨hempty, hrevision, hclosed, hindex⟩ :=
    settled_beforeLoss.lose (fun _ => true) rfl none
  rw [← hfour] at hempty hrevision hclosed hindex
  have hthird : beforeLoss.store.revision = 3 := by decide +kernel
  have hopen : beforeLoss.store.restoreState = 0 := by decide +kernel
  have hid : 1 ∈ beforeLoss.store.commands.map Command.commandId := by decide +kernel
  have hnames := (hindex 1).mpr (List.mem_map.mp hid)
  generalize (powerOn (fun _ => true) ⟨1, 4, 200, 7⟩ none).worn (fun _ => true) wornOut 4 = x at *
  have hne (s : Snapshot) (hs : s.revision = 2) : s.revision ≠ x.store.revision.toNat := by
    rw [hs, hrevision, hthird]
    decide
  exact ⟨hnames, asyncRefresh_of_empty hempty (hclosed.trans hopen) [] (hne _ rfl) _ _,
    not_faithful_of_empty hempty (hclosed.trans hopen) hnames (hne ⟨[], 2, 2, 0,
      [⟨1, [], 1, [], 0, 0, 0, 0, []⟩]⟩ rfl) (List.cons_ne_nil _ _)⟩

/-- The device of a learned command whose waveform is lost, before it reboots. -/
theorem replica_complete_until_reboot :
    ((powerOn (fun _ => true) ⟨1, 4, 200, 7⟩ none).worn (fun _ => true) (wornOut.take 3) 3).Faithful := by
  refine replica_complete (by decide) (fun _ => true) none ?_ ?_ 3 (by decide)
  · intro e he
    simp only [wornOut, List.take_succ_cons, List.take_zero, List.mem_cons, List.not_mem_nil,
      or_false] at he
    rcases he with rfl | rfl | rfl <;> trivial
  · intro k e he
    rcases k with _ | _ | _ | k
    · obtain rfl := Option.some.inj he
      exact fun _ _ => by decide +kernel
    · obtain rfl := Option.some.inj he
      exact fun hlearns => nomatch hlearns
    · obtain rfl := Option.some.inj he
      trivial
    · cases he

end Session

end RfCloner
