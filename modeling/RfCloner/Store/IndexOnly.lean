/-
  Cutting the power during an operation that writes only the index.

  `write_index_` saves the index and then the header that states its length, and `load_index_`
  reads an index of exactly that length.  Between the two saves the old header describes the new
  index, which is harmless as long as the two agree on the number of slots.  The first write after
  `max_commands` has changed is the one where they do not: `index_cut_atomic_iff` is the exact
  extent, for any store straight after its boot.
-/
import RfCloner.Store.Rollback

namespace RfCloner

open FixedCodec StorageBackend

/-! ## The cut -/

/-- The flash after an operation, when the power is cut after `k` of its saves. -/
def Op.cut (op : Op) (s : CommandStore) (k : Nat) (r : Records UInt32) : Records UInt32 :=
  (op.run (cutAfter k) s ⟨r, 0⟩).2.2.records

/-- The registry in RAM after an operation all of whose saves land. -/
def Op.registryAfter (op : Op) (s : CommandStore) (r : Records UInt32) : CommandStore.Registry :=
  (op.run sound s ⟨r, 0⟩).2.1.registry

namespace CommandStore

/-- After a power cut the store comes up writable, with the registry from before or after. -/
def CutAtomic (op : Op) (s : CommandStore) (k : Nat) (r : Records UInt32) : Prop :=
  ∀ random, (reboot s.config random (op.cut s k r)).readOnly = false ∧
    ((reboot s.config random (op.cut s k r)).registry = s.registry ∨
      (reboot s.config random (op.cut s k r)).registry = op.registryAfter s r)

section Cut

variable {s t next undone : CommandStore} {op : Op} {payload : Option Nat} {r : Records UInt32}
  {raw : Bytes}

theorem cut_of_stop {result : StoreResult} (h : op.plan s = .stop result) (k : Nat) :
    op.cut s k r = r := by
  rw [Op.cut, Op.run_of_stop h]

theorem cut_of_write (h : op.plan s = .write payload next undone) (k : Nat) :
    op.cut s k r = r.apply ((next.records payload).take k) := by
  rw [Op.cut, run_of_write _ h, saveAll_cutAfter]
  rfl

theorem registryAfter_of_write (h : op.plan s = .write payload next undone) :
    op.registryAfter s r = next.registry := by
  rw [Op.registryAfter, run_of_write _ h, saveAll_sound]
  rfl

theorem CutAtomic.of_before {k : Nat} (h : Restores s.config (op.cut s k r) s.registry) :
    CutAtomic op s k r :=
  fun random => ⟨(h random).1, Or.inl (h random).2⟩

theorem CutAtomic.of_after {k : Nat}
    (h : Restores s.config (op.cut s k r) (op.registryAfter s r)) : CutAtomic op s k r :=
  fun random => ⟨(h random).1, Or.inr (h random).2⟩

/-- An operation that saves no payload saves the index and the header. -/
theorem records_of_indexOnly (hkind : op.savesPayload = false)
    (h : op.plan s = .write payload next undone) :
    payload = none ∧ next.records payload
      = [(next.config.indexKey, next.indexRecord), (next.config.headerKey, headerRecord next.config)] := by
  have hnone := savesPayload_of_write h
  rw [hkind] at hnone
  obtain rfl := Option.isNone_iff_eq_none.mp (Option.not_isSome_iff_eq_none.mp
    (Bool.eq_false_iff.mp hnone) ▸ rfl : payload.isNone = true)
  exact ⟨rfl, rfl⟩

/-- **The cuts of an index-only operation**, in a sound store that its flash restores. -/
theorem cutAtomic_iff (hs : s.Sound) (hpos : s.config.maxCommands ≠ 0) (hfrom : LoadedFrom s r raw t)
    (hkind : op.savesPayload = false) (hop : ∀ random, op ≠ .factoryReset random) (k : Nat) :
    CutAtomic op s k r ↔
      (¬ op.Accepts s ∨ k = 0 ∨ 2 ≤ k ∨
        (StoredHeader.codec.decode raw).slotCount = s.config.maxCommands) := by
  have hbefore : Restores s.config r s.registry := by
    rw [← hfrom.registry]
    exact Restores.of_readable hfrom.readable
  cases hplan : op.plan s with
  | stop result =>
    refine ⟨fun _ => Or.inl (refused_iff.mp ⟨result, hplan⟩), fun _ => CutAtomic.of_before ?_⟩
    rw [cut_of_stop hplan]
    exact hbefore
  | write payload next undone =>
    have hacc := accepts_of_write hplan
    obtain ⟨rfl, hrec⟩ := records_of_indexOnly hkind hplan
    obtain ⟨-, hchange, -⟩ := (op_change (fun _ => hs) hplan).resolve_right
      fun ⟨random, hreset, _⟩ => hop random hreset
    have hcut := cut_of_write (r := r) hplan k
    have hreg := registryAfter_of_write (r := r) hplan
    -- the cut is before the index, between the index and the header, or after both
    rcases k with _ | _ | k
    · refine ⟨fun _ => Or.inr (Or.inl rfl), fun _ => CutAtomic.of_before ?_⟩
      rw [hcut]
      exact hbefore
    · obtain ⟨hsame, hwritable⟩ := hchange.after_index hs hfrom
      rw [hrec, hchange.config.1] at hcut
      constructor
      · intro hatomic
        have hw := (hatomic none).1
        rw [hcut] at hw
        exact Or.inr (Or.inr (Or.inr (hwritable none hw).1))
      · rintro (hrefused | hk | hk | hcount)
        · exact absurd hacc hrefused
        · cases hk
        · omega
        · apply CutAtomic.of_after
          rw [hcut, hreg]
          exact hsame hcount
    · refine ⟨fun _ => Or.inr (Or.inr (Or.inl (by omega))), fun _ => CutAtomic.of_after ?_⟩
      have hall := hchange.after_all hs hpos hfrom.coherent
      rw [hcut, hreg, List.take_of_length_le (by rw [hrec]; exact Nat.le_add_left 2 k)]
      exact hall

/-! ## A flash without a header -/

/-- Some identity differs from any two. -/
theorem exists_other_bridgeId (a b : BridgeId) : ∃ c : BridgeId, c ≠ a ∧ c ≠ b := by
  let uniform (byte : UInt8) : BridgeId :=
    ⟨List.replicate bridgeIdBytes byte, List.length_replicate⟩
  by_cases h0 : uniform 0 ≠ a ∧ uniform 0 ≠ b
  · exact ⟨_, h0⟩
  by_cases h1 : uniform 1 ≠ a ∧ uniform 1 ≠ b
  · exact ⟨_, h1⟩
  refine ⟨uniform 2, ?_, ?_⟩
  all_goals
    intro h2
    have h01 : uniform 0 ≠ uniform 1 := by decide
    have h02 : uniform 0 ≠ uniform 2 := by decide
    have h12 : uniform 1 ≠ uniform 2 := by decide
    grind

/-- A boot over a flash without a header mints an identity, so it restores nothing. -/
theorem not_cutAtomic_of_no_header {k : Nat}
    (hheader : (op.cut s k r).load s.config.headerKey StoredHeader.codec.width = none) :
    ¬ CutAtomic op s k r := by
  intro hatomic
  obtain ⟨fresh, hbefore, hafter⟩ :=
    exists_other_bridgeId s.registry.bridgeId (op.registryAfter s r).bridgeId
  have hminted : (reboot s.config (some fresh) (op.cut s k r)).registry.bridgeId = fresh := by
    rw [reboot_of_no_header hheader]
    rfl
  rcases (hatomic (some fresh)).2 with hreg | hreg
  · exact hbefore (hminted.symm.trans (congrArg Registry.bridgeId hreg))
  · exact hafter (hminted.symm.trans (congrArg Registry.bridgeId hreg))

/-- An index saved alone leaves the flash without a header. -/
theorem load_header_save_index (r : Records UInt32) (cfg : Config) (d : Bytes) :
    (r.save cfg.indexKey d).load cfg.headerKey StoredHeader.codec.width
      = r.load cfg.headerKey StoredHeader.codec.width :=
  Records.load_congr (Records.save_of_ne cfg.headerKey_ne_indexKey _ _) _

/-- The cuts of an index-only operation in a store with no commands and no header on flash: only
    the whole operation can be restored. -/
theorem cutAtomic_iff_of_no_header (hs : s.Sound) (hpos : s.config.maxCommands ≠ 0)
    (hcoh : Coherent s r) (hheader : r.load s.config.headerKey StoredHeader.codec.width = none)
    (hkind : op.savesPayload = false) (hop : ∀ random, op ≠ .factoryReset random) (k : Nat) :
    CutAtomic op s k r ↔ op.Accepts s ∧ 2 ≤ k := by
  cases hplan : op.plan s with
  | stop result =>
    refine ⟨fun hatomic => absurd hatomic (not_cutAtomic_of_no_header ?_), fun ⟨hacc, _⟩ => ?_⟩
    · rw [cut_of_stop hplan]
      exact hheader
    · exact absurd hacc (refused_iff.mp ⟨result, hplan⟩)
  | write payload next undone =>
    have hacc := accepts_of_write hplan
    obtain ⟨rfl, hrec⟩ := records_of_indexOnly hkind hplan
    obtain ⟨-, hchange, -⟩ := (op_change (fun _ => hs) hplan).resolve_right
      fun ⟨random, hreset, _⟩ => hop random hreset
    have hcut := cut_of_write (r := r) hplan k
    rcases k with _ | _ | k
    · refine ⟨fun hatomic => absurd hatomic (not_cutAtomic_of_no_header ?_), fun ⟨_, hk⟩ => ?_⟩
      · rw [hcut]
        exact hheader
      · omega
    · refine ⟨fun hatomic => absurd hatomic (not_cutAtomic_of_no_header ?_), fun ⟨_, hk⟩ => ?_⟩
      · rw [hrec, hchange.config.1] at hcut
        rw [hcut]
        exact (load_header_save_index _ _ _).trans hheader
      · omega
    · refine ⟨fun _ => ⟨hacc, by omega⟩, fun _ => CutAtomic.of_after ?_⟩
      have hall := hchange.after_all hs hpos hcoh
      rw [hcut, registryAfter_of_write hplan,
        List.take_of_length_le (by rw [hrec]; exact Nat.le_add_left 2 k)]
      exact hall

end Cut

end CommandStore

/-! ## Straight after a boot -/

namespace Session

open CommandStore

/-- Flash that is blank, or that a device has left behind. -/
def LeftBehind (lands : Nat → Bool) (flash : Fake UInt32) : Prop :=
  flash = blank ∨ ∃ cfg random events, flash = (run lands (powerOn lands cfg random) events).flash

section Boot

variable {lands : Nat → Bool} {flash : Fake UInt32} {cfg : Config} {random : Option BridgeId}

theorem LeftBehind.authored (h : LeftBehind lands flash) : Authored flash.records := by
  rcases h with rfl | ⟨cfg, random, events, rfl⟩
  · intro key d hget
    cases hget
  · exact (founded_run lands cfg random events).flash

/-- A boot that finds no header leaves a minted store, and of its own two saves those that landed. -/
theorem boot_minted (lands : Nat → Bool) (random : Option BridgeId)
    (hload : flash.records.load cfg.headerKey StoredHeader.codec.width = none) :
    (boot lands cfg random flash).store = (configure cfg).mintIdentity random ∧
    ∃ n ≤ 2, (boot lands cfg random flash).flash.records
      = flash.records.apply (((configure cfg).mintIdentity random).indexRecords.take n) := by
  have hboot := boot_of_no_header cfg (faulty lands) flash random hload
  obtain ⟨n, hn, hrec, -⟩ :=
    saveAll_faulty lands ((configure cfg).mintIdentity random).indexRecords flash
  rw [← writeIndex_eq_saveAll] at hrec
  exact ⟨congrArg (fun out => out.2.1) hboot, n, hn,
    (congrArg (fun out => out.2.2.records) hboot).trans hrec⟩

/-- Both saves of such a boot restore the minted store. -/
theorem restores_minted (hpos : cfg.maxCommands ≠ 0) (r : Records UInt32) :
    Restores cfg (r.apply ((configure cfg).mintIdentity random).indexRecords)
      ((configure cfg).mintIdentity random).registry := by
  have hs := mint_sound cfg random
  have hconfig : ((configure cfg).mintIdentity random).config = cfg := rfl
  have hslots : ((configure cfg).mintIdentity random).slots
      = List.replicate cfg.maxCommands.toNat {} := rfl
  generalize (configure cfg).mintIdentity random = s at hs hconfig hslots ⊢
  subst hconfig
  exact Restores.of_image hs (Image.of_apply_indexRecords hpos
    fun i _ hocc => Coherent.of_empty hslots i hocc)

/-- A boot that finds a header saves nothing, and is read-only or loads what is on flash. -/
theorem boot_decoded {header : Bytes}
    (hload : flash.records.load cfg.headerKey StoredHeader.codec.width = some header)
    (hw : (boot lands cfg random flash).store.readOnly = false) :
    (boot lands cfg random flash).flash = flash ∧
    ∃ m raw, Readable flash.records.load cfg m raw ∧
      (boot lands cfg random flash).store = decoded flash.records.load cfg m raw := by
  have hboot := boot_of_header cfg (faulty lands) flash random hload
  obtain ⟨m, raw, -, hr⟩ :=
    readable_of_boot flash.records.load cfg (faulty lands) flash rfl hload hw
  exact ⟨congrArg (fun out => out.2.2) hboot, m, raw, hr,
    congrArg Prod.fst (boot_of_readable flash.records.load cfg (faulty lands) flash rfl random hr).1⟩

/-- **After a boot that is not read-only, a header on flash means that the flash restores what was
    loaded**; without one the store has no commands. -/
theorem boot_restores (hpos : cfg.maxCommands ≠ 0)
    (hw : (boot lands cfg random flash).store.readOnly = false) :
    let x := boot lands cfg random flash
    x.store.config = cfg ∧
    ((∃ raw, x.flash.records.load cfg.headerKey StoredHeader.codec.width = some raw) →
      Restores cfg x.flash.records x.store.registry) ∧
    (x.flash.records.load cfg.headerKey StoredHeader.codec.width = none →
      Coherent x.store x.flash.records) := by
  intro x
  cases hload : flash.records.load cfg.headerKey StoredHeader.codec.width with
  | none =>
    obtain ⟨hstore, n, hn, hrec⟩ := boot_minted lands random hload
    rw [show x.store = _ from hstore, show x.flash.records = _ from hrec]
    refine ⟨rfl, ?_, fun _ => Coherent.of_empty rfl⟩
    rintro ⟨raw, hraw⟩
    -- the header is there, so both saves of the boot have landed
    rcases n with _ | _ | n
    · rw [List.take_zero, Records.apply_nil, hload] at hraw
      cases hraw
    · have hsaved := load_header_save_index flash.records cfg
        ((configure cfg).mintIdentity random).indexRecord
      rw [hload] at hsaved
      cases hsaved.symm.trans hraw
    · rw [List.take_of_length_le (Nat.le_add_left 2 n)]
      exact restores_minted hpos flash.records
  | some header =>
    obtain ⟨hsame, m, raw, hr, hstore⟩ := boot_decoded hload hw
    rw [show x.store = _ from hstore, show x.flash = _ from hsame]
    refine ⟨rfl, fun _ => Restores.of_readable hr, fun hnone => ?_⟩
    rw [hload] at hnone
    cases hnone

end Boot

/-- **Crash atomicity of the index-only operations, and where it ends.**  For every store straight
    after a boot that is not read-only, from any flash a device can have left behind and under any
    configuration: a power cut after `k` saves of a rename, a removal, `clear_all`, `restore_begin`
    or `restore_commit` leaves a flash that loads, as the registry before or after, exactly if a
    header is on flash and the operation is refused, no save landed, both landed, or the header
    states the configured number of slots; or if there is no header, because the first write of the
    boot itself failed, and both saves of the operation landed. -/
theorem index_cut_atomic_iff {lands : Nat → Bool} {flash : Fake UInt32}
    (hflash : LeftBehind lands flash) {cfg : Config} (hpos : cfg.maxCommands ≠ 0)
    (random : Option BridgeId) :
    let x := boot lands cfg random flash
    x.store.readOnly = false →
    ∀ (op : Op) (k : Nat), op.savesPayload = false → (∀ random, op ≠ .factoryReset random) →
    (CutAtomic op x.store k x.flash.records ↔
      (∃ raw, x.flash.records.load cfg.headerKey StoredHeader.codec.width = some raw ∧
        (¬ op.Accepts x.store ∨ k = 0 ∨ 2 ≤ k ∨
          (StoredHeader.codec.decode raw).slotCount = cfg.maxCommands)) ∨
      (x.flash.records.load cfg.headerKey StoredHeader.codec.width = none ∧
        op.Accepts x.store ∧ 2 ≤ k)) := by
  intro x hw op k hkind hop
  have hx : Founded x := Founded.boot hflash.authored cfg random
  obtain ⟨hconfig, hrestores, hempty⟩ := boot_restores hpos hw
  have hs : x.store.Sound := hx.ram hw
  have hpos' : x.store.config.maxCommands ≠ 0 := by
    rw [show x.store.config = cfg from hconfig]
    exact hpos
  cases hload : x.flash.records.load cfg.headerKey StoredHeader.codec.width with
  | none =>
    rw [cutAtomic_iff_of_no_header hs hpos' (hempty hload) (hconfig.symm ▸ hload) hkind hop]
    exact ⟨fun h => Or.inr ⟨rfl, h⟩, fun h => h.elim (fun ⟨_, h, _⟩ => nomatch h) And.right⟩
  | some header =>
    have hreg : Restores x.store.config x.flash.records x.store.registry := by
      rw [show x.store.config = cfg from hconfig]
      exact hrestores ⟨header, hload⟩
    obtain ⟨raw, t, hfrom⟩ := hreg.loadedFrom (hx.flash.stored_of_restores hreg)
    have hraw := hfrom.header
    rw [show x.store.config = cfg from hconfig, hload] at hraw
    obtain rfl := Option.some.inj hraw
    rw [cutAtomic_iff hs hpos' hfrom hkind hop, show x.store.config = cfg from hconfig]
    constructor
    · exact fun h => Or.inl ⟨header, rfl, h⟩
    · rintro (⟨raw, hraw, h⟩ | ⟨hnone, -⟩)
      · obtain rfl := Option.some.inj hraw
        exact h
      · cases hnone

/-- A device that has never learned anything, rebooted under another number of slots, is as new. -/
theorem boot_resized {cfg cfg' : Config} (hpos : cfg.maxCommands ≠ 0)
    (hsalt : cfg'.keySalt = cfg.keySalt) (lands : Nat → Bool) (random random' : Option BridgeId)
    {flash : Fake UInt32} {r : Records UInt32}
    (hflash : flash.records = r.apply ((configure cfg).mintIdentity random).indexRecords) :
    (boot lands cfg' random' flash).store = (configure cfg').mintIdentity random ∧
    (boot lands cfg' random' flash).flash = flash := by
  have hs := mint_sound cfg random
  have hslots : ((configure cfg).mintIdentity random).slots
      = List.replicate cfg.maxCommands.toNat {} := rfl
  have hmeta : (configure cfg').adoptMeta ((configure cfg).mintIdentity random).storedMeta
      = (configure cfg').mintIdentity random := rfl
  have hconfig : ((configure cfg).mintIdentity random).config = cfg := rfl
  generalize (configure cfg).mintIdentity random = s at hs hslots hmeta hconfig hflash
  subst hconfig
  have himage : Image flash.records s := by
    rw [hflash]
    exact Image.of_apply_indexRecords hpos fun i _ hocc => Coherent.of_empty hslots i hocc
  have hr : Readable flash.records.load cfg' s.config.maxCommands s.indexRecord :=
    himage.readable hs.storable_slot hsalt
  have hboot := boot_of_readable flash.records.load cfg' (faulty lands) flash rfl random' hr
  have hreloads : Reloads flash.records s
      (decoded flash.records.load cfg' s.config.maxCommands s.indexRecord) :=
    reloads_decoded hs.toWellFormed
  -- every slot is free, whichever number of them there is
  have hfree : (decoded flash.records.load cfg' s.config.maxCommands s.indexRecord).slots
      = List.replicate cfg'.maxCommands.toNat {} := by
    refine List.eq_replicate_iff.mpr ⟨hreloads.sized, fun c hc => ?_⟩
    obtain ⟨i, hi, rfl⟩ := List.getElem_of_mem hc
    rw [← slot_eq_getElem hi]
    refine (hreloads.slots i).resolve_right fun ⟨hocc, _⟩ => ?_
    rw [slot_of_replicate hslots] at hocc
    cases hocc
  have hdecoded : decoded flash.records.load cfg' s.config.maxCommands s.indexRecord
      = (configure cfg').mintIdentity random := by
    unfold decoded at hfree ⊢
    rw [storedMetaOf_indexRecord, hmeta] at hfree ⊢
    dsimp only at hfree
    rw [hfree]
    rfl
  exact ⟨(congrArg Prod.fst hboot.1).trans hdecoded, congrArg Prod.snd hboot.1⟩

theorem leftBehind_fresh : LeftBehind (fun _ => true) fresh.flash :=
  Or.inr ⟨⟨1, 4, 200, 7⟩, none, [], rfl⟩

section Restarted

variable (maxCommands : UInt8)

/-- A fresh device of one slot after a restart under another `max_commands`. -/
theorem restarted_minted :
    let x := boot (fun _ => true) ⟨maxCommands, 4, 200, 7⟩ none fresh.flash
    x.store = (configure ⟨maxCommands, 4, 200, 7⟩).mintIdentity none ∧ x.flash = fresh.flash := by
  have hrecords : fresh.flash.records
      = blank.records.apply ((configure ⟨1, 4, 200, 7⟩).mintIdentity none).indexRecords :=
    records_boot_fresh rfl none
  have hpos : (⟨1, 4, 200, 7⟩ : Config).maxCommands ≠ 0 := by decide
  have hsalt : (⟨maxCommands, 4, 200, 7⟩ : Config).keySalt = (⟨1, 4, 200, 7⟩ : Config).keySalt := rfl
  exact boot_resized hpos hsalt (fun _ => true) none none hrecords

/-- The header of that device still states one slot. -/
theorem restarted_header :
    (boot (fun _ => true) ⟨maxCommands, 4, 200, 7⟩ none fresh.flash).flash.records.load
        (⟨maxCommands, 4, 200, 7⟩ : Config).headerKey StoredHeader.codec.width
      = some (headerRecord ⟨1, 4, 200, 7⟩) := by
  rw [(restarted_minted maxCommands).2]
  refine Records.load_eq_some.mpr ⟨?_, length_headerRecord _⟩
  have hrecords : fresh.flash.records
      = blank.records.apply ((configure ⟨1, 4, 200, 7⟩).mintIdentity none).indexRecords :=
    records_boot_fresh rfl none
  rw [hrecords]
  exact apply_indexRecords_header (s := (configure ⟨1, 4, 200, 7⟩).mintIdentity none)

theorem slotCount_restarted :
    (StoredHeader.codec.decode (headerRecord ⟨1, 4, 200, 7⟩)).slotCount = 1 :=
  (headerStates_headerRecord ⟨1, 4, 200, 7⟩ (by decide)).slotCount

end Restarted

/-- The device after its owner has set `max_commands` to two. -/
def resized : Session := boot (fun _ => true) ⟨2, 4, 200, 7⟩ none fresh.flash

/-- Power cut between the two saves of its first `restore_begin`: neither registry can be loaded. -/
theorem resized_not_cut_atomic :
    resized.store.readOnly = false ∧ resized.store.fault = .none ∧
    ¬ CutAtomic (.restoreBegin BridgeId.zero 1) resized.store 1 resized.flash.records := by
  have hstore : resized.store = _ := (restarted_minted 2).1
  have hro : resized.store.readOnly = false := by rw [hstore]; rfl
  refine ⟨hro, by rw [hstore]; rfl, fun hatomic => ?_⟩
  have hx : Founded resized := Founded.boot leftBehind_fresh.authored _ _
  have hpos : (⟨2, 4, 200, 7⟩ : Config).maxCommands ≠ 0 := by decide
  obtain ⟨hconfig, hkept, -⟩ := boot_restores hpos hro
  have hrestores : Restores resized.store.config resized.flash.records resized.store.registry :=
    hconfig.symm ▸ hkept ⟨_, restarted_header 2⟩
  obtain ⟨raw, t, hfrom⟩ := hrestores.loadedFrom (hx.flash.stored_of_restores hrestores)
  obtain rfl : raw = headerRecord ⟨1, 4, 200, 7⟩ := by
    have h := hfrom.header
    rw [hstore] at h
    exact Option.some.inj (h.symm.trans (restarted_header 2))
  rcases (cutAtomic_iff (hx.ram hro) (by rw [hstore]; decide) hfrom rfl
    (fun _ h => Op.noConfusion h) 1).mp hatomic with hrefused | hk | hk | hsame
  · rw [hstore] at hrefused
    exact hrefused (by decide +kernel)
  · cases hk
  · omega
  · rw [slotCount_restarted, hstore] at hsame
    exact absurd hsame (by decide)

/-- Under its own configuration the device survives a cut between the two saves, and under the other one
    a cut after both. -/
theorem index_cut_atomic_resized :
    let restarted := boot (fun _ => true) ⟨1, 4, 200, 7⟩ none fresh.flash
    CutAtomic (.restoreBegin BridgeId.zero 1) restarted.store 1 restarted.flash.records ∧
      CutAtomic (.restoreBegin BridgeId.zero 1) resized.store 2 resized.flash.records := by
  intro restarted
  have hrestarted : restarted.store.readOnly = false := by rw [(restarted_minted 1).1]; rfl
  have hresized : resized.store.readOnly = false := by
    rw [show resized.store = _ from (restarted_minted 2).1]
    rfl
  have hreset : ∀ random, Op.restoreBegin BridgeId.zero 1 ≠ .factoryReset random :=
    fun _ h => Op.noConfusion h
  constructor
  · exact (index_cut_atomic_iff leftBehind_fresh (by decide) none hrestarted _ 1 rfl hreset).mpr
      (Or.inl ⟨_, restarted_header 1, Or.inr (Or.inr (Or.inr slotCount_restarted))⟩)
  · exact (index_cut_atomic_iff leftBehind_fresh (by decide) none hresized _ 2 rfl hreset).mpr
      (Or.inl ⟨_, restarted_header 2, Or.inr (Or.inr (Or.inl (Nat.le_refl 2)))⟩)

end Session

end RfCloner
