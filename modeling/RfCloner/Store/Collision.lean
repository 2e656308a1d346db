/-
  Two salts whose keys collide.

  A salt is a hash of the component's id, and two different hashes can differ by exactly the mask
  that takes one fixed key to another.  Then a record of one instance lies under the same key as a
  record of another kind of the other instance.  `isolated_iff` shows that isolation fails for every
  such pair: let one instance fill all of its slots, then the other, and reboot the first.  The four
  kinds of records have four different lengths, so the first instance cannot read back the record
  that was overwritten.
-/
import RfCloner.Store.KeySpace
import RfCloner.Store.Revision
import RfCloner.Store.Capacity

namespace RfCloner

open FixedCodec StorageBackend

/-! ## Filling every slot -/

namespace Session

open CommandStore

/-- The life of an instance that fills its slots. -/
def filling (cfg : Config) : List Event :=
  .reboot cfg none :: (Reference.fill cfg.limits.pulses cfg.limits.commands).map .op

theorem under_filling (cfg : Config) :
    ∀ e ∈ filling cfg, e.Under fun c => c.keySalt = cfg.keySalt := by
  intro e he
  rcases List.mem_cons.mp he with rfl | he
  · rfl
  · obtain ⟨op, -, rfl⟩ := List.mem_map.mp he
    trivial

/-- A settled device all of whose slots hold a waveform as long as the limits allow. -/
structure Full (cfg : Config) (x : Session) : Prop extends Settled cfg x where
  revision : x.store.revision ≠ revisionInitial
  slots : ∀ i < cfg.limits.commands, (x.store.slot i).occupied = true ∧
    (x.store.slot i).timings.length = cfg.limits.pulses

/-- A device that stands for a filled registry is full. -/
theorem Full.of_filled {cfg : Config} {x : Session} {r : Reference} (hsettled : Settled cfg x)
    (hmirrors : Mirrors x r) (hfilled : r.Filled cfg.limits cfg.limits.commands)
    (hpos : 0 < cfg.limits.commands) : Full cfg x := by
  have hcount : x.store.count = cfg.limits.commands :=
    (count_abs hmirrors.sound).symm.trans ((congrArg Reference.count hmirrors.abs).trans hfilled.count)
  have hlength : x.store.slots.length = cfg.limits.commands := by
    rw [hsettled.sound.sized, hsettled.config]
    rfl
  have hall : ∀ c ∈ x.store.slots, c.occupied = true :=
    List.length_filter_eq_length_iff.mp (count_eq.symm.trans (hcount.trans hlength.symm))
  refine ⟨hsettled, fun hone => ?_, fun i hi => ?_⟩
  · have hrev : x.store.revision = r.revision := congrArg Reference.revision hmirrors.abs
    have hnat := hfilled.revision
    rw [← hrev, hone, show revisionInitial.toNat = 1 from rfl] at hnat
    omega
  · have hocc : (x.store.slot i).occupied = true := by
      rw [slot_eq_getElem (by omega)]
      exact hall _ (List.getElem_mem _)
    have hlookup := (lookup_registered_eq_some hmirrors.sound).mpr ⟨i, hocc, rfl, rfl⟩
    have hcommands : x.store.registered hmirrors.sound = r.commands :=
      congrArg Reference.commands hmirrors.abs
    rw [hcommands] at hlookup
    exact ⟨hocc, hfilled.pulses _ _ hlookup⟩

/-- **A device that finds no header and has room for the worst case can be filled.** -/
theorem full_filling {cfg : Config} (s : CommandStore) {flash : Fake UInt32}
    (hload : flash.records.load cfg.headerKey StoredHeader.codec.width = none)
    (hpos : cfg.maxCommands ≠ 0) (hpulses : 0 < cfg.limits.pulses)
    (hfits : cfg.limits.worstCase ≤ cfg.limits.bytes) :
    Full cfg (run (fun _ => true) ⟨s, flash⟩ (filling cfg)) := by
  have hcommands : cfg.limits.commands ≤ 255 := Nat.le_of_lt_succ cfg.maxCommands.toNat_lt
  rw [filling, run_cons]
  refine Full.of_filled ((Settled.fresh hload none).run_eq_or_lt hpos ?_).1
    ((Mirrors.of_fresh (store_boot_fresh hload none)).run _)
    (Reference.Filled.fill cfg.limits none hpulses (Nat.le_refl _) hcommands hfits)
    (Nat.pos_of_ne_zero (UInt8.toNat_inj.not.mpr hpos))
  intro e he
  obtain ⟨op, hop, rfl⟩ := List.mem_map.mp he
  obtain ⟨k, -, rfl⟩ := List.mem_map.mp hop
  exact ⟨trivial, fun random heq => by cases heq⟩

end Session

/-! ## The lengths of the records -/

/-- As many slots as `max_commands` allows, and room for all of them. -/
def roomy (salt : UInt32) (pulses : UInt16) : Config := ⟨255, pulses, 65535, salt⟩

theorem roomy_pos (salt : UInt32) (pulses : UInt16) : (roomy salt pulses).maxCommands ≠ 0 :=
  show (255 : UInt8) ≠ 0 by decide

theorem roomy_fits (salt : UInt32) {pulses : UInt16} (hlen : pulses.toNat ≤ 4) :
    (roomy salt pulses).limits.worstCase ≤ (roomy salt pulses).limits.bytes := by
  have hover : CommandStore.overhead (roomy salt pulses) = 11260 := by
    rw [CommandStore.overhead, width_header, indexBytesFor_eq,
      show (roomy salt pulses).maxCommands.toNat = 255 from rfl]
  show CommandStore.overhead (roomy salt pulses) + 255 * (pulses.toNat * 4) ≤ 65535
  omega

namespace Session

open CommandStore

section Full

variable {salt : UInt32} {pulses : UInt16} {x : Session}

/-- A slot that loads one timing has read it from a record of four bytes. -/
theorem record_of_loaded {r : Records UInt32} {cfg : Config} {i : Nat} {slot : StoredSlot}
    {d : Command} (h : slotOutcome r.load cfg i slot = .loaded d) (hone : d.timings.length = 1) :
    ∃ record, r (cfg.payloadKey (UInt8.ofNat i)) = some record ∧ record.length = 4 := by
  rw [slotOutcome] at h
  split at h
  · cases h
  split at h
  · cases h
  cases hwave : slot.waveform r.load cfg i with
  | none =>
    rw [hwave] at h
    cases h
  | some timings =>
    rw [hwave] at h
    cases h
    rw [StoredSlot.waveform] at hwave
    split at hwave
    · cases hwave
    · rename_i record hrecord
      obtain ⟨hget, hlen⟩ := Records.load_eq_some.mp hrecord
      split at hwave
      · cases hwave
      · have htimings := congrArg List.length (Option.some.inj hwave)
        rw [sle32.length_decodeAll, show timings.length = 1 from hone] at htimings
        rw [htimings] at hlen
        exact ⟨record, hget, hlen⟩

/-- The records of a filled device have the lengths of their kinds. -/
theorem Full.lengths (h : Full (roomy salt pulses) x) {k : UInt32} (hk : k ∈ recordKeys) :
    ∃ d, x.flash.records (k ^^^ salt) = some d ∧
      ((k = keyHeader ∧ d.length = 10) ∨ (k = keyIndex ∧ d.length = 11250) ∨
        (∃ i < 255, k = payloadKey (UInt8.ofNat i)) ∧ d.length = pulses.toNat * 4) := by
  have hconfig := h.config
  rcases mem_recordKeys.mp hk with rfl | rfl | ⟨i, hlt, rfl⟩
  · refine ⟨_, ?_, Or.inl ⟨rfl, (length_headerRecord (roomy salt pulses)).trans width_header⟩⟩
    have hheader := h.flash.header
    rw [hconfig] at hheader
    exact hheader
  · refine ⟨x.store.indexRecord, ?_, Or.inr (Or.inl ⟨rfl, ?_⟩)⟩
    · have hindex := h.flash.index
      rw [hconfig] at hindex
      exact hindex
    · rw [length_indexRecord, hconfig, indexBytesFor_eq,
        show (roomy salt pulses).maxCommands.toNat = 255 from rfl]
  · obtain ⟨hocc, htimings⟩ := h.slots i hlt
    have hpayload := h.flash.coherent i hocc
    rw [hconfig] at hpayload
    refine ⟨_, hpayload, Or.inr (Or.inr ⟨⟨i, hlt, rfl⟩, ?_⟩)⟩
    rw [length_timingsBytes, htimings]
    rfl

/-- A store that a boot over `r` loads, not read-only and past its first revision, was read from
    records of the lengths of their kinds. -/
theorem lengths_of_reboot {r : Records UInt32}
    (hw : (reboot (roomy salt pulses) none r).readOnly = false)
    (hrev : (reboot (roomy salt pulses) none r).revision ≠ revisionInitial)
    (hslots : ∀ i < 255, ((reboot (roomy salt pulses) none r).slot i).occupied = true ∧
      ((reboot (roomy salt pulses) none r).slot i).timings.length = 1)
    {k : UInt32} (hk : k ∈ recordKeys) :
    ∃ d, r (k ^^^ salt) = some d ∧
      ((k = keyHeader ∧ d.length = 10) ∨ (k = keyIndex ∧ ∃ m : UInt8, d.length = indexBytesFor m) ∨
        (∃ i < 255, k = payloadKey (UInt8.ofNat i)) ∧ d.length = 4) := by
  cases hload : r.load (roomy salt pulses).headerKey StoredHeader.codec.width with
  | none =>
    rw [reboot_of_no_header hload] at hrev
    exact absurd rfl hrev
  | some header =>
    obtain ⟨m, raw, -, hr⟩ := readable_of_writable hload hw
    obtain ⟨hheader, hheaderLen⟩ := Records.load_eq_some.mp hload
    obtain ⟨hindex, hindexLen⟩ := Records.load_eq_some.mp hr.index
    rw [reboot_of_readable hr] at hslots
    rcases mem_recordKeys.mp hk with rfl | rfl | ⟨i, hlt, rfl⟩
    · exact ⟨header, hheader, Or.inl ⟨rfl, hheaderLen⟩⟩
    · exact ⟨raw, hindex, Or.inr (Or.inl ⟨rfl, m, hindexLen⟩)⟩
    · obtain ⟨hocc, hone⟩ := hslots i hlt
      have hslot : (decoded r.load (roomy salt pulses) m raw).slot i
          = if i < (roomy salt pulses).maxCommands.toNat ∧ i < m.toNat
            then (outcomeAt r.load raw (roomy salt pulses) i).command else {} := getD_readSlots ..
      obtain ⟨record, hrecord, hlen⟩ : ∃ record, r ((roomy salt pulses).payloadKey (UInt8.ofNat i))
          = some record ∧ record.length = 4 := by
        by_cases hread : i < (roomy salt pulses).maxCommands.toNat ∧ i < m.toNat
        · rw [if_pos hread] at hslot
          rw [hslot] at hocc hone
          cases hout : outcomeAt r.load raw (roomy salt pulses) i with
          | loaded d =>
            rw [hout] at hone
            rw [outcomeAt] at hout
            exact record_of_loaded hout hone
          | free | unfittable | faulty =>
            rw [hout] at hocc
            cases hocc
        · rw [if_neg hread] at hslot
          rw [hslot] at hocc
          cases hocc
      exact ⟨record, hrecord, Or.inr (Or.inr ⟨⟨i, hlt, rfl⟩, hlen⟩)⟩

/-- A run of an instance leaves the keys it does not own alone. -/
theorem records_run_not_owned {x : Session} {events : List Event} {key : UInt32}
    (h : Salted salt x.store) (hevents : ∀ e ∈ events, e.Under fun cfg => cfg.keySalt = salt)
    (hkey : ¬ Owns salt key) :
    (run (fun _ => true) x events).flash.records key = x.flash.records key := by
  induction events generalizing x with
  | nil => rfl
  | cons e events ih =>
    have he := hevents e List.mem_cons_self
    have hrest := ih (h.step he) fun e he => hevents e (List.mem_cons_of_mem _ he)
    refine hrest.trans ?_
    rw [records_step]
    exact Records.apply_of_not_mem fun w hw heq => hkey (heq ▸ writes_owned h he w hw)

end Full

end Session

/-! ## A collision is noticed -/

namespace Shared

open CommandStore Session

/-- A run of one instance alone, inside the shared system. -/
theorem session_run (x : Shared) (who : Bool) (events : List RfCloner.Event) :
    (x.run (events.map (Prod.mk who))).session who
      = Session.run (fun _ => true) (x.session who) events := by
  induction events generalizing x with
  | nil => rfl
  | cons e events ih =>
    have hstep : (x.step (who, e)).session who = Session.step (fun _ => true) (x.session who) e := by
      rw [session, store_step_self x (who, e)]
      rfl
    show ((x.step (who, e)).run (events.map (Prod.mk who))).session who = _
    rw [ih, hstep]
    rfl

theorem run_append (x : Shared) (es fs : List Event) : x.run (es ++ fs) = (x.run es).run fs :=
  List.foldl_append

theorem eventsOf_first (es fs : List RfCloner.Event) :
    eventsOf false (es.map (Prod.mk false) ++ fs.map (Prod.mk true)) = es := by
  have hown : (es.map (Prod.mk false)).filter (fun e => e.1 == false) = es.map (Prod.mk false) :=
    List.filter_eq_self.mpr fun e he => by
      obtain ⟨a, -, rfl⟩ := List.mem_map.mp he
      rfl
  have hother : (fs.map (Prod.mk true)).filter (fun e => e.1 == false) = [] :=
    List.filter_eq_nil_iff.mpr fun e he => by
      obtain ⟨a, -, rfl⟩ := List.mem_map.mp he
      exact Bool.false_ne_true ∘ fun h => h
  rw [eventsOf, List.filter_append, hown, hother, List.append_nil, List.map_map]
  exact List.map_id es

section Collision

variable {salt : Bool → UInt32} {cfg : Bool → Config} {es fs : List RfCloner.Event}

/-- What one instance has filled holds no header another instance could take for its own. -/
theorem no_header_of_filled {x : Session} (hsalt : salt false ≠ salt true)
    (hfilled : Full (roomy (salt false) 1) x)
    (hothers : ∀ key, ¬ Owns (salt false) key → x.flash.records key = none) :
    x.flash.records.load (roomy (salt true) 2).headerKey StoredHeader.codec.width = none := by
  by_contra hsome
  obtain ⟨d, hd⟩ := Option.ne_none_iff_exists'.mp hsome
  obtain ⟨hrecord, hlen⟩ := Records.load_eq_some.mp hd
  rw [width_header] at hlen
  by_cases howns : Owns (salt false) (roomy (salt true) 2).headerKey
  · obtain ⟨k, hk, hkeys⟩ := howns
    obtain ⟨d', hd', hkind⟩ := hfilled.lengths hk
    rw [hkeys] at hd'
    obtain rfl := Option.some.inj (hrecord.symm.trans hd')
    rcases hkind with ⟨rfl, -⟩ | ⟨-, hindex⟩ | ⟨-, hpayload⟩
    · exact hsalt ((UInt32.xor_right_inj keyHeader).mp hkeys)
    · omega
    · rw [hlen] at hpayload
      cases hpayload
  · cases (hothers _ howns).symm.trans hrecord

/-- Two filled devices whose last records under a shared key are of different kinds: the first
    cannot be read back. -/
theorem not_reread {x y : Session} {a b : UInt32} (hab : a ≠ b) (ha : a ∈ recordKeys)
    (hb : b ∈ recordKeys) (hkey : a ^^^ salt false = b ^^^ salt true)
    (hx : Full (roomy (salt false) 1) x) (hy : Full (roomy (salt true) 2) y) :
    reboot (roomy (salt false) 1) none y.flash.records ≠ x.store := by
  intro hreread
  have hwritable : (reboot (roomy (salt false) 1) none y.flash.records).readOnly = false := by
    rw [hreread]
    exact hx.writable
  have hrevision : (reboot (roomy (salt false) 1) none y.flash.records).revision
      ≠ revisionInitial := by
    rw [hreread]
    exact hx.revision
  obtain ⟨d, hd, hkind⟩ := lengths_of_reboot hwritable hrevision (fun i hi => by
    rw [hreread]
    exact hx.slots i hi) ha
  obtain ⟨d', hd', hkind'⟩ := hy.lengths hb
  rw [hkey] at hd
  obtain rfl := Option.some.inj (hd.symm.trans hd')
  rw [show (2 : UInt16).toNat = 2 from rfl] at hkind'
  -- 10 bytes, `30 + 44 * m` bytes, 4 bytes or 8 bytes
  rcases hkind with ⟨hak, hl⟩ | ⟨hak, m, hl⟩ | ⟨-, hl⟩
  · rcases hkind' with ⟨hbk, -⟩ | ⟨-, hr⟩ | ⟨-, hr⟩
    · exact hab (hak.trans hbk.symm)
    · omega
    · omega
  · rw [indexBytesFor_eq] at hl
    rcases hkind' with ⟨-, hr⟩ | ⟨hbk, -⟩ | ⟨-, hr⟩
    · omega
    · exact hab (hak.trans hbk.symm)
    · omega
  · rcases hkind' with ⟨-, hr⟩ | ⟨-, hr⟩ | ⟨-, hr⟩ <;> omega

/-- **Instances of different salts whose keys collide are not isolated.**  The first fills its slots
    with one timing each, the second its own with two, and the first is rebooted. -/
theorem not_isolated_of_collision (hsalt : salt false ≠ salt true) {a b : UInt32}
    (ha : a ∈ recordKeys) (hb : b ∈ recordKeys) (hkey : a ^^^ salt false = b ^^^ salt true) :
    ¬ Isolated salt := by
  intro hisolated
  have hab : a ≠ b := fun heq => hsalt ((UInt32.xor_right_inj a).mp (hkey.trans (heq ▸ rfl)))
  obtain ⟨es, hes⟩ : ∃ es, es = filling (roomy (salt false) 1) := ⟨_, rfl⟩
  obtain ⟨fs, hfs⟩ : ∃ fs, fs = filling (roomy (salt true) 2) := ⟨_, rfl⟩
  obtain ⟨cfg, hcfg⟩ : ∃ cfg : Bool → Config,
      cfg = fun who => roomy (salt who) (cond who 2 1) := ⟨_, rfl⟩
  have hunder : ∀ e ∈ es.map (Prod.mk false) ++ fs.map (Prod.mk true),
      e.2.Under fun c => c.keySalt = salt e.1 := by
    intro e he
    rcases List.mem_append.mp he with he | he
    · obtain ⟨e', he', rfl⟩ := List.mem_map.mp he
      exact under_filling (roomy (salt false) 1) e' (hes ▸ he')
    · obtain ⟨e', he', rfl⟩ := List.mem_map.mp he
      exact under_filling (roomy (salt true) 2) e' (hfs ▸ he')
  obtain ⟨-, -, hboot⟩ := hisolated cfg (fun who => by rw [hcfg]; rfl) _ hunder false
  have hsame := (hboot (roomy (salt false) 1) none rfl).2
  rw [alone, eventsOf_first] at hsame
  -- the first instance, up to the moment when the second starts
  have hfirst : Full (roomy (salt false) 1) (Session.run (fun _ => true)
      ⟨configure (cfg false), Session.blank⟩ es) := by
    rw [hes]
    exact full_filling _ rfl (roomy_pos _ _) Nat.one_pos (roomy_fits _ (by decide))
  have hothers : ∀ key, ¬ Owns (salt false) key → (Session.run (fun _ => true)
      ⟨configure (cfg false), Session.blank⟩ es).flash.records key = none := by
    intro key hkey
    have hsalted : Salted (salt false) (configure (cfg false)) := by
      rw [hcfg]
      exact ⟨rfl, List.length_replicate⟩
    rw [hes]
    exact records_run_not_owned hsalted (under_filling (roomy (salt false) 1)) hkey
  have hmiddle : ((start cfg).run (es.map (Prod.mk false))).flash
      = (Session.run (fun _ => true) ⟨configure (cfg false), Session.blank⟩ es).flash :=
    congrArg Session.flash (session_run (start cfg) false es)
  have hload := no_header_of_filled hsalt hfirst hothers
  rw [← hmiddle] at hload
  -- the second instance, at the end
  have hlast : Full (roomy (salt true) 2)
      ((run (start cfg) (es.map (Prod.mk false) ++ fs.map (Prod.mk true))).session true) := by
    rw [run_append, session_run, hfs]
    exact full_filling _ hload (roomy_pos _ _) Nat.two_pos (roomy_fits _ (by decide))
  generalize Session.run (fun _ => true) ⟨configure (cfg false), Session.blank⟩ es = first
    at hsame hfirst
  generalize run (start cfg) (es.map (Prod.mk false) ++ fs.map (Prod.mk true)) = x at hsame hlast
  have hkept := congrArg Session.store (hfirst.toSettled.reboot (roomy_pos _ _) none)
  have hreread : reboot (roomy (salt false) 1) none x.flash.records = first.store := by
    have hshared : (boot sound (roomy (salt false) 1) none x.flash).2.1
        = reboot (roomy (salt false) 1) none x.flash.records := boot_store_eq rfl _ _
    rw [← hshared, hsame]
    exact hkept
  exact not_reread hab ha hb hkey hfirst hlast hreread

end Collision

/-- **Which salts isolate two instances**: those whose keys are all different. -/
theorem isolated_iff {salt : Bool → UInt32} (hsalt : salt false ≠ salt true) :
    Isolated salt ↔ KeysDisjoint salt := by
  constructor
  · intro hisolated a ha b hb hkey
    exact not_isolated_of_collision hsalt ha hb hkey hisolated
  · exact isolated_of_disjoint

/-- Two salts that differ by the mask between the header key and the index key. -/
def headerOverIndex : Bool → UInt32
  | false => 0
  | true => keyHeader ^^^ keyIndex

/-- These two salts are different, and the instances overwrite each other's header and index. -/
theorem headerOverIndex_not_isolated :
    headerOverIndex false ≠ headerOverIndex true ∧ ¬ Isolated headerOverIndex := by
  have hsalt : headerOverIndex false ≠ headerOverIndex true := by decide
  have hkey : keyHeader ^^^ headerOverIndex false = keyIndex ^^^ headerOverIndex true := by decide
  exact ⟨hsalt, not_isolated_of_collision hsalt (mem_recordKeys.mpr (Or.inl rfl))
    (mem_recordKeys.mpr (Or.inr (Or.inl rfl))) hkey⟩

/-- Two salts of one low byte. -/
def distantSalts : Bool → UInt32
  | false => 0
  | true => 0x100

/-- The payload keys do not meet, because their low bytes tell the slots apart, and the header and the
    index meet nothing. -/
theorem keysDisjoint_distantSalts : KeysDisjoint distantSalts := by
  have hall : (recordKeys.all fun k =>
      k != keyHeader ^^^ 0x100 && k != keyIndex ^^^ 0x100) = true := by
    decide +kernel
  have hfixed : ∀ k ∈ recordKeys, k ≠ keyHeader ^^^ 0x100 ∧ k ≠ keyIndex ^^^ 0x100 := by
    simpa only [List.all_eq_true, Bool.and_eq_true, bne_iff_ne] using hall
  intro a ha b hb hkey
  have hab : a = b ^^^ 0x100 := UInt32.xor_zero.symm.trans hkey
  have hba : b = a ^^^ 0x100 := by rw [hab, UInt32.xor_assoc, UInt32.xor_self, UInt32.xor_zero]
  have hne : a ≠ b := fun heq => by
    have hzero : b ^^^ 0 = b ^^^ 0x100 := UInt32.xor_zero.trans (heq.symm.trans hab)
    exact absurd ((UInt32.xor_right_inj b).mp hzero) (by decide)
  rcases mem_recordKeys.mp ha with rfl | rfl | ⟨i, -, rfl⟩
  · exact (hfixed b hb).1 hba
  · exact (hfixed b hb).2 hba
  · rcases mem_recordKeys.mp hb with rfl | rfl | ⟨j, -, rfl⟩
    · exact (hfixed _ ha).1 hab
    · exact (hfixed _ ha).2 hab
    · have hlow := congrArg UInt32.toUInt8 hab
      rw [UInt32.toUInt8_xor, show (0x100 : UInt32).toUInt8 = 0 from by decide, UInt8.xor_zero] at hlow
      exact hne (congrArg payloadKey (payloadKey_low_inj hlow))

/-- Instances of these salts are isolated. -/
theorem distantSalts_isolated : KeysDisjoint distantSalts ∧ Isolated distantSalts :=
  have hsalt : distantSalts false ≠ distantSalts true := by decide
  ⟨keysDisjoint_distantSalts, (isolated_iff hsalt).mpr keysDisjoint_distantSalts⟩

end Shared

end RfCloner
