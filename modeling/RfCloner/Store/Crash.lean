/-
  Cutting the power during `put`.

  `put` saves the payload of its slot, then the index, then the header.  A relearn saves the new
  waveform over the one the old index still describes, so the cut after the first save is not
  covered by the comment on `put` that a partially applied write leaves the previous state; and an
  index of a new length is unreadable until the header that states it has landed.
  `put_crash_atomic_iff` is the exact extent of the promise, for every reachable store: the four
  points at which the power can be cut are taken one after another.
-/
import RfCloner.Store.Reboot

namespace RfCloner

open FixedCodec StorageBackend

namespace CommandStore

/-! ## When `put` writes -/

/-- What `put` asks of the store and the command before it writes anything. -/
def Accepts (s : CommandStore) (c : Command) : Prop :=
  s.writable = .ok ∧ validateName c.name = .ok ∧ 0 < c.timings.length ∧
  c.timings.length ≤ s.config.maxPulses.toNat ∧
  ((s.findSlot c.name).isSome = true ∨
    s.findFreeSlot.isSome = true ∧ s.nextCommandId ≤ commandIdLast) ∧
  s.projectedBytes (s.findSlot c.name) (UInt16.ofNat c.timings.length) ≤ s.config.maxStorageBytes ∧
  s.revision < revisionMax

instance (s : CommandStore) (c : Command) : Decidable (s.Accepts c) := by
  unfold Accepts
  infer_instance

section Accepts

variable {s : CommandStore} {c : Command}

/-- The slot `projected_bytes_` leaves out is the slot of the name. -/
theorem putSlot_skip {name : Bytes} {slot : Nat} {overwriting : Bool} {id : UInt32}
    (h : s.putSlot name = .ok (slot, overwriting, id)) :
    (if overwriting then some slot else none) = s.findSlot name := by
  rcases putSlot_eq_ok h with ⟨rfl, hfind, -⟩ | ⟨rfl, hfind, -⟩
  · exact hfind.symm
  · exact hfind.symm

theorem putSlot_isOk {name : Bytes} :
    (∃ slot overwriting id, s.putSlot name = .ok (slot, overwriting, id)) ↔
      ((s.findSlot name).isSome = true ∨
        s.findFreeSlot.isSome = true ∧ s.nextCommandId ≤ commandIdLast) := by
  constructor
  · rintro ⟨slot, overwriting, id, h⟩
    rcases putSlot_eq_ok h with ⟨-, hfind, -⟩ | ⟨-, -, hfree, hlast, -⟩
    · exact Or.inl (Option.isSome_iff_exists.mpr ⟨slot, hfind⟩)
    · exact Or.inr ⟨Option.isSome_iff_exists.mpr ⟨slot, hfree⟩, hlast⟩
  · intro h
    rw [putSlot]
    cases hfind : s.findSlot name with
    | some slot => exact ⟨_, _, _, rfl⟩
    | none =>
      rw [hfind] at h
      obtain ⟨hfree, hlast⟩ := h.resolve_left Bool.false_ne_true
      obtain ⟨slot, hslot⟩ := Option.isSome_iff_exists.mp hfree
      rw [hslot]
      exact ⟨slot, false, s.nextCommandId, if_neg (UInt32.not_lt.mpr hlast)⟩

/-- **`put` reaches its writes exactly when it accepts.** -/
theorem putPlan_write_iff : (∃ payload next undone, s.putPlan c = .write payload next undone) ↔
    s.Accepts c := by
  constructor
  · rintro ⟨payload, next, undone, h⟩
    obtain ⟨hw, hname, hpos, hle, slot, overwriting, id, rev, hslot, hbudget, hrev, -⟩ :=
      putPlan_eq_write h
    rw [putSlot_skip hslot] at hbudget
    exact ⟨hw, hname, hpos, hle, putSlot_isOk.mp ⟨slot, overwriting, id, hslot⟩,
      UInt32.not_lt.mp hbudget,
      (nextRevision_isSome _).mp (Option.isSome_iff_exists.mpr ⟨rev, hrev⟩)⟩
  · rintro ⟨hw, hname, hpos, hle, hslot, hbudget, hrev⟩
    obtain ⟨slot, overwriting, id, hslot⟩ := putSlot_isOk.mpr hslot
    obtain ⟨rev, hrev⟩ := Option.isSome_iff_exists.mp ((nextRevision_isSome _).mpr hrev)
    have hempty : ¬ c.timings.isEmpty = true := by
      rw [List.isEmpty_iff, ← List.length_eq_zero_iff]
      omega
    rw [← putSlot_skip hslot] at hbudget
    rw [putPlan, if_neg (not_not_intro hw), if_neg (not_not_intro hname), if_neg hempty,
      if_neg (Nat.not_lt.mpr hle), hslot]
    dsimp only
    rw [if_neg (UInt32.not_lt.mpr hbudget), hrev]
    exact ⟨_, _, _, rfl⟩

end Accepts

/-! ## What `put` writes -/

/-- `put` of `c` has decided to write `next`, with the payload of `slot`. -/
structure PutWrite (s : CommandStore) (c : Command) (slot : Nat) (next : CommandStore) : Prop where
  slot_lt : slot < s.slots.length
  change : Change s (some slot) next
  config : next.config = s.config
  sound : next.Sound
  timings : (next.slot slot).timings = c.timings
  others : ∀ i, i ≠ slot → next.slot i = s.slot i
  revision : next.revision ≠ s.revision
  target : (s.findSlot c.name = some slot ∧ (s.slot slot).occupied = true) ∨
    (s.findSlot c.name = none ∧ (s.slot slot).occupied = false)

theorem putWrite_of_plan {s next undone : CommandStore} {c : Command} {payload : Option Nat}
    (hs : s.Sound) (h : s.putPlan c = .write payload next undone) :
    ∃ slot, payload = some slot ∧ PutWrite s c slot next := by
  obtain ⟨hchange, -⟩ := putPlan_change hs h
  obtain ⟨-, -, -, -, slot, overwriting, id, rev, hslot, -, hrev, rfl, hnext, -⟩ :=
    putPlan_eq_write h
  have hslots : next.slots = s.slots.set slot { c with commandId := id } := by rw [hnext]
  have htarget : (s.findSlot c.name = some slot ∧ (s.slot slot).occupied = true) ∨
      (s.findSlot c.name = none ∧ (s.slot slot).occupied = false) := by
    rcases putSlot_eq_ok hslot with ⟨-, hfind, -⟩ | ⟨-, hfind, hfree, -⟩
    · exact Or.inl ⟨hfind, (findSlot_eq_some hfind).1⟩
    · exact Or.inr ⟨hfind, (findFreeSlot_eq_some hfree).2⟩
  have hlt : slot < s.slots.length := by
    rcases putSlot_eq_ok hslot with ⟨-, hfind, -⟩ | ⟨-, -, hfree, -⟩
    · exact lt_of_slot_occupied (findSlot_eq_some hfind).1
    · exact (findFreeSlot_eq_some hfree).1
  refine ⟨slot, rfl, hlt, hchange, hchange.config.1, hchange.sound hs, ?_, ?_, ?_, htarget⟩
  · rw [slot_of_set hslots hlt, if_pos rfl]
  · intro i hi
    rw [slot_of_set hslots hlt, if_neg hi]
  · intro heq
    have hsucc := (nextRevision_eq_some hrev).1
    have hrevision : next.revision = rev := by rw [hnext]
    rw [← hrevision, heq] at hsucc
    omega

/-! ## The flash before and after each save -/

/-- The flash the store was loaded from, as far as `put` is concerned: its index is that of `t`,
    its header states the slots of `t`, and its slots decode to the slots in RAM. -/
structure LoadedFrom (s : CommandStore) (r : Records UInt32) (raw : Bytes) (t : CommandStore) :
    Prop where
  header : r.load s.config.headerKey StoredHeader.codec.width = some raw
  states : HeaderStates raw t.config.maxCommands
  sound : t.Sound
  index : r s.config.indexKey = some t.indexRecord
  readable : Readable r.load s.config t.config.maxCommands t.indexRecord
  registry : (decoded r.load s.config t.config.maxCommands t.indexRecord).registry = s.registry

theorem Restores.loadedFrom {s : CommandStore} {r : Records UInt32}
    (hst : Stored Sound s.config r) (h : Restores s.config r s.registry) :
    ∃ raw t, LoadedFrom s r raw t := by
  obtain ⟨raw, t, hraw, hstates, -, ht, hindex, hr, hreg⟩ := h.readable hst
  exact ⟨raw, t, hraw, hstates, ht, hindex, hr, hreg⟩

section Flash

variable {s t : CommandStore} {r r' : Records UInt32} {raw : Bytes} {i : Nat}

theorem LoadedFrom.slot (h : LoadedFrom s r raw t) (i : Nat) :
    s.slot i = if i < s.config.maxCommands.toNat ∧ i < t.config.maxCommands.toNat
      then (outcomeAt r.load t.indexRecord s.config i).command else {} := by
  have hslots : (decoded r.load s.config t.config.maxCommands t.indexRecord).slots = s.slots :=
    congrArg Registry.slots h.registry
  rw [CommandStore.slot, ← hslots]
  exact getD_readSlots ..

theorem LoadedFrom.revision (h : LoadedFrom s r raw t) : t.revision = s.revision := by
  have hmeta : storedMetaOf t.indexRecord = t.storedMeta := storedMetaOf_indexRecord t
  exact (congrArg StoredMeta.revision hmeta).symm.trans (congrArg Registry.revision h.registry)

/-- An occupied slot was loaded from its payload. -/
theorem LoadedFrom.outcome (h : LoadedFrom s r raw t) (hocc : (s.slot i).occupied = true) :
    i < t.config.maxCommands.toNat ∧
      outcomeAt r.load t.indexRecord s.config i = .loaded (s.slot i) := by
  have hslot := h.slot i
  by_cases hi : i < s.config.maxCommands.toNat ∧ i < t.config.maxCommands.toNat
  · rw [if_pos hi] at hslot
    refine ⟨hi.2, ?_⟩
    cases hout : outcomeAt r.load t.indexRecord s.config i with
    | loaded d =>
      rw [hout] at hslot
      rw [hslot]
      rfl
    | free | unfittable | faulty =>
      rw [hslot, hout] at hocc
      cases hocc
  · rw [if_neg hi] at hslot
    rw [hslot] at hocc
    cases hocc

/-- What a slot of the index of `t` loads as, read over any records. -/
theorem outcomeAt_indexRecord_loaded {cfg : Config} (ht : t.Sound)
    (hi : i < t.config.maxCommands.toNat) {d : Command}
    (h : outcomeAt r.load t.indexRecord cfg i = .loaded d) :
    d.occupied = true ∧ r (cfg.payloadKey (UInt8.ofNat i)) = some (timingsBytes d.timings) := by
  rw [outcomeAt, storedSlotAt_indexRecord t hi] at h
  obtain ⟨hocc, heq, -, -, hpay⟩ := slotOutcome_eq_loaded (ht.storable_slot i) h
  rw [heq]
  exact ⟨hocc, hpay⟩

theorem LoadedFrom.coherent (h : LoadedFrom s r raw t) : Coherent s r := by
  intro i hocc
  obtain ⟨hi, hout⟩ := h.outcome hocc
  exact (outcomeAt_indexRecord_loaded h.sound hi hout).2

/-- The waveform of a record determines it. -/
theorem timingsBytes_inj {a b : List Int32} (h : timingsBytes a = timingsBytes b) : a = b := by
  have hlen : a.length = b.length := by
    have := congrArg List.length h
    rw [length_timingsBytes, length_timingsBytes] at this
    omega
  have hdec := congrArg (sle32.decodeAll a.length) h
  rw [timingsBytes, timingsBytes, decodeAll_encodeAll, hlen, decodeAll_encodeAll] at hdec
  exact hdec

/-! ## Saves over that flash -/

/-- A later `begin` that comes up writable has read the index that is there, and the header states
    its slot count. -/
theorem readable_of_index {cfg : Config} {random : Option BridgeId}
    (hheader : r.load cfg.headerKey StoredHeader.codec.width = some raw)
    (hindex : r cfg.indexKey = some t.indexRecord) (hw : (reboot cfg random r).readOnly = false) :
    HeaderStates raw t.config.maxCommands ∧
      Readable r.load cfg t.config.maxCommands t.indexRecord := by
  obtain ⟨m, index, hstates, hr⟩ := readable_of_writable hheader hw
  obtain ⟨hraw, hlen⟩ := Records.load_eq_some.mp hr.index
  obtain rfl := Option.some.inj (hindex.symm.trans hraw)
  rw [length_indexRecord] at hlen
  obtain rfl := indexBytesFor_inj hlen
  exact ⟨hstates, hr⟩

/-- It has the revision of that index. -/
theorem revision_of_index {cfg : Config} {random : Option BridgeId}
    (hheader : r.load cfg.headerKey StoredHeader.codec.width = some raw)
    (hindex : r cfg.indexKey = some t.indexRecord) (hw : (reboot cfg random r).readOnly = false) :
    (reboot cfg random r).registry.revision = t.revision := by
  rw [reboot_of_readable (readable_of_index hheader hindex hw).2]
  exact congrArg StoredMeta.revision (storedMetaOf_indexRecord t)

/-- A payload saved for a free slot changes nothing: no index describes it. -/
theorem LoadedFrom.save_free (h : LoadedFrom s r raw t) (hs : s.Sound) {slot : Nat}
    (hlt : slot < s.slots.length) (hfree : (s.slot slot).occupied = false) (d : Bytes) :
    Restores s.config (r.save (s.config.payloadKey (UInt8.ofNat slot)) d) s.registry := by
  have hkey : ∀ i < t.config.maxCommands.toNat, i ≠ slot →
      s.config.payloadKey (UInt8.ofNat i) ≠ s.config.payloadKey (UInt8.ofNat slot) := by
    intro i hi hne
    have hlen := hs.length_lt
    have hmax : t.config.maxCommands.toNat < 256 := t.config.maxCommands.toNat_lt
    exact s.config.payloadKey_ne_payloadKey (by omega) (by omega) hne
  have hslots : ∀ i < t.config.maxCommands.toNat,
      outcomeAt (r.save (s.config.payloadKey (UInt8.ofNat slot)) d).load t.indexRecord s.config i
        = outcomeAt r.load t.indexRecord s.config i := by
    intro i hi
    by_cases hne : i = slot
    · refine outcomeAt_of_not_loaded (h.readable.payloads i hi) ?_
      intro c hc
      have hslot := h.slot i
      have hmax : i < s.config.maxCommands.toNat := hne ▸ hs.sized ▸ hlt
      rw [if_pos ⟨hmax, hi⟩, hc] at hslot
      have hocc := (outcomeAt_indexRecord_loaded h.sound hi hc).1
      rw [← hne, hslot] at hfree
      exact absurd hocc (Bool.eq_false_iff.mp hfree)
    · exact outcomeAt_congr (Records.save_of_ne (hkey i hi hne) _ _)
  obtain ⟨hr, hdec⟩ := h.readable.congr
    (Records.save_of_ne (s.config.payloadKey_ne_headerKey _).symm _ _)
    (Records.save_of_ne (s.config.payloadKey_ne_indexKey _).symm _ _) hslots
  rw [← h.registry, ← hdec]
  exact Restores.of_readable hr

/-- Another payload saved over that of a command loses the registry: the index still describes the
    old one. -/
theorem LoadedFrom.save_other (h : LoadedFrom s r raw t) {slot : Nat}
    (hocc : (s.slot slot).occupied = true) {d : Bytes}
    (hd : d ≠ timingsBytes (s.slot slot).timings) (random : Option BridgeId) :
    let r' := r.save (s.config.payloadKey (UInt8.ofNat slot)) d
    ¬ ((reboot s.config random r').readOnly = false ∧
      (reboot s.config random r').registry = s.registry) := by
  intro r' ⟨hw, hreg⟩
  have hindex : r' s.config.indexKey = some t.indexRecord :=
    (Records.save_of_ne (s.config.payloadKey_ne_indexKey _).symm _ _).trans h.index
  have hload : r'.load s.config.headerKey StoredHeader.codec.width = some raw :=
    (Records.load_congr (Records.save_of_ne (s.config.payloadKey_ne_headerKey _).symm _ _) _).trans
      h.header
  obtain ⟨-, hr⟩ := readable_of_index hload hindex hw
  rw [reboot_of_readable hr] at hreg
  -- the slot would have to load the old waveform from the new record
  have hfrom' : LoadedFrom s r' raw t := ⟨hload, h.states, h.sound, hindex, hr, hreg⟩
  have hnew : r' (s.config.payloadKey (UInt8.ofNat slot)) = some d := Records.save_self _ _ _
  exact hd (Option.some.inj (hnew.symm.trans (hfrom'.coherent _ hocc)))

section Change

variable {next : CommandStore} {payload : Option Nat}

/-- The payload of an operation leaves the header and the index alone. -/
theorem apply_payloadRecord (r : Records UInt32) :
    r.apply (payload.map next.payloadRecord).toList next.config.headerKey
        = r next.config.headerKey ∧
      r.apply (payload.map next.payloadRecord).toList next.config.indexKey
        = r next.config.indexKey := by
  cases payload with
  | none => exact ⟨rfl, rfl⟩
  | some i =>
    exact ⟨Records.save_of_ne (next.config.payloadKey_ne_headerKey _).symm _ _,
      Records.save_of_ne (next.config.payloadKey_ne_indexKey _).symm _ _⟩

/-- The index of a change landed and its header did not: the new registry is on flash exactly if
    the header that is there already states the slot count of the new index. -/
theorem Change.after_index (h : Change s payload next) (hs : s.Sound)
    (hfrom : LoadedFrom s r raw t) :
    let r' := (r.apply (payload.map next.payloadRecord).toList).save s.config.indexKey
      next.indexRecord
    ((StoredHeader.codec.decode raw).slotCount = s.config.maxCommands →
      Restores s.config r' next.registry) ∧
    (∀ random, (reboot s.config random r').readOnly = false →
      (StoredHeader.codec.decode raw).slotCount = s.config.maxCommands ∧
        (reboot s.config random r').registry.revision = next.revision) := by
  intro r'
  have hconfig := h.config.1
  have hn := h.sound hs
  have hheader : r' s.config.headerKey = r s.config.headerKey := by
    refine (Records.save_of_ne s.config.headerKey_ne_indexKey _ _).trans ?_
    rw [← hconfig]
    exact (apply_payloadRecord r).1
  have hload : r'.load s.config.headerKey StoredHeader.codec.width = some raw :=
    (Records.load_congr hheader _).trans hfrom.header
  have hindex : r' s.config.indexKey = some next.indexRecord := Records.save_self _ _ _
  constructor
  · intro hcount
    have hsame : t.config.maxCommands = s.config.maxCommands :=
      hfrom.states.slotCount.symm.trans hcount
    rw [← hconfig]
    refine Restores.of_image hn ⟨⟨raw, ?_, ?_⟩, ?_, ?_⟩
    · rw [hconfig]
      exact hload
    · rw [hconfig, ← hsame]
      exact hfrom.states
    · rw [hconfig]
      exact hindex
    · intro i _ hocc
      have hpay := h.coherent hn hfrom.coherent i hocc
      rw [hconfig] at hpay ⊢
      exact (Records.save_of_ne (s.config.payloadKey_ne_indexKey _) _ _).trans hpay
  · intro random hw
    refine ⟨?_, revision_of_index hload hindex hw⟩
    rw [(readable_of_index hload hindex hw).1.slotCount, hconfig]

/-- Every save of a change landed: the new registry is on flash. -/
theorem Change.after_all (h : Change s payload next) (hs : s.Sound)
    (hpos : s.config.maxCommands ≠ 0) (hcoh : Coherent s r) :
    Restores s.config (r.apply (next.records payload)) next.registry := by
  rw [CommandStore.records, Records.apply_append, ← h.config.1]
  exact Restores.of_image (h.sound hs) (Image.of_apply_indexRecords (by rw [h.config.1]; exact hpos)
    fun i _ hocc => h.coherent (h.sound hs) hcoh i hocc)

end Change

end Flash

/-! ## One cut at a time -/

section Cuts

variable {s t next : CommandStore} {c : Command} {slot : Nat} {r : Records UInt32} {raw : Bytes}

/-- The payload record `put` saves. -/
theorem PutWrite.payloadRecord (hput : PutWrite s c slot next) :
    next.payloadRecord slot
      = (s.config.payloadKey (UInt8.ofNat slot), timingsBytes c.timings) := by
  rw [CommandStore.payloadRecord, hput.config, hput.timings]

theorem PutWrite.pos (hput : PutWrite s c slot next) (hs : s.Sound) :
    s.config.maxCommands ≠ 0 := by
  intro hz
  have hlt := hput.slot_lt
  rw [hs.sized, hz] at hlt
  exact absurd hlt (Nat.not_lt_zero slot)

/-- All three saves landed: the new registry is on flash. -/
theorem PutWrite.after_all (hput : PutWrite s c slot next) (hs : s.Sound)
    (hfrom : LoadedFrom s r raw t) :
    Restores s.config
      ((r.save (s.config.payloadKey (UInt8.ofNat slot)) (timingsBytes c.timings)).apply
        next.indexRecords) next.registry := by
  have hall := hput.change.after_all hs (hput.pos hs) hfrom.coherent
  rwa [records_some, hput.payloadRecord, Records.apply_cons] at hall

/-- The payload and the index landed: the new registry is on flash exactly if the header that is
    there already states the slot count of the new index. -/
theorem PutWrite.after_index (hput : PutWrite s c slot next) (hs : s.Sound)
    (hfrom : LoadedFrom s r raw t) :
    let r' := (r.save (s.config.payloadKey (UInt8.ofNat slot)) (timingsBytes c.timings)).save
      s.config.indexKey next.indexRecord
    ((StoredHeader.codec.decode raw).slotCount = s.config.maxCommands →
      Restores s.config r' next.registry) ∧
    (∀ random, (reboot s.config random r').readOnly = false →
      (StoredHeader.codec.decode raw).slotCount = s.config.maxCommands) := by
  have hindex := hput.change.after_index hs hfrom
  rw [Option.map_some, hput.payloadRecord] at hindex
  exact ⟨hindex.1, fun random hw => (hindex.2 random hw).1⟩

/-- Only the payload landed, in a free slot or over the same waveform: nothing has changed. -/
theorem PutWrite.after_payload_same (hput : PutWrite s c slot next) (hs : s.Sound)
    (hfrom : LoadedFrom s r raw t)
    (hsame : (s.slot slot).occupied = true → (s.slot slot).timings = c.timings) :
    Restores s.config
      (r.save (s.config.payloadKey (UInt8.ofNat slot)) (timingsBytes c.timings)) s.registry := by
  by_cases hocc : (s.slot slot).occupied = true
  · have hthere := hfrom.coherent _ hocc
    rw [hsame hocc] at hthere
    rw [Records.save_eq_self hthere, ← hfrom.registry]
    exact Restores.of_readable hfrom.readable
  · exact hfrom.save_free hs hput.slot_lt (Bool.eq_false_iff.mpr hocc) _

/-- Only the payload landed, over a different waveform: neither registry can be loaded. -/
theorem PutWrite.after_payload_changed (hput : PutWrite s c slot next)
    (hfrom : LoadedFrom s r raw t) (hocc : (s.slot slot).occupied = true)
    (hdiff : (s.slot slot).timings ≠ c.timings) (random : Option BridgeId) :
    let r' := r.save (s.config.payloadKey (UInt8.ofNat slot)) (timingsBytes c.timings)
    ¬ ((reboot s.config random r').readOnly = false ∧
      ((reboot s.config random r').registry = s.registry ∨
        (reboot s.config random r').registry = next.registry)) := by
  intro r' ⟨hw, hreg⟩
  rcases hreg with hbefore | hafter
  · exact hfrom.save_other hocc (fun h => hdiff (timingsBytes_inj h).symm) random ⟨hw, hbefore⟩
  · -- the index on flash still states the old revision
    have hindex : r' s.config.indexKey = some t.indexRecord :=
      (Records.save_of_ne (s.config.payloadKey_ne_indexKey _).symm _ _).trans hfrom.index
    have hload : r'.load s.config.headerKey StoredHeader.codec.width = some raw :=
      (Records.load_congr (Records.save_of_ne (s.config.payloadKey_ne_headerKey _).symm _ _)
        _).trans hfrom.header
    have hrev := revision_of_index hload hindex hw
    rw [hafter, hfrom.revision] at hrev
    exact hput.revision hrev

end Cuts

/-! ## The promise and its extent -/

/-- The flash after `put`, when the power is cut after `k` of its saves. -/
def putCut (s : CommandStore) (c : Command) (k : Nat) (r : Records UInt32) : Records UInt32 :=
  ((Op.put c).run (cutAfter k) s ⟨r, 0⟩).2.2.records

/-- The registry in RAM after `put` with every save landing. -/
def putRegistry (s : CommandStore) (c : Command) (r : Records UInt32) : Registry :=
  ((Op.put c).run sound s ⟨r, 0⟩).2.1.registry

/-- After a power cut the store comes up writable, with the registry before `put` or after it. -/
def CrashAtomic (s : CommandStore) (c : Command) (k : Nat) (r : Records UInt32) : Prop :=
  ∀ random, (reboot s.config random (putCut s c k r)).readOnly = false ∧
    ((reboot s.config random (putCut s c k r)).registry = s.registry ∨
      (reboot s.config random (putCut s c k r)).registry = putRegistry s c r)

section CrashAtomic

variable {s next undone : CommandStore} {c : Command} {slot : Nat} {r : Records UInt32}

theorem putCut_of_write (h : s.putPlan c = .write (some slot) next undone) (k : Nat) :
    putCut s c k r = r.apply ((next.records (some slot)).take k) := by
  rw [putCut, run_of_write _ (show (Op.put c).plan s = _ from h), saveAll_cutAfter]
  rfl

theorem putRegistry_of_write (h : s.putPlan c = .write (some slot) next undone) :
    putRegistry s c r = next.registry := by
  rw [putRegistry, run_of_write _ (show (Op.put c).plan s = _ from h), saveAll_sound]
  rfl

theorem putCut_of_stop {result : StoreResult} (h : s.putPlan c = .stop result) (k : Nat) :
    putCut s c k r = r := by
  rw [putCut, Op.run_of_stop (show (Op.put c).plan s = _ from h)]

theorem CrashAtomic.of_before {k : Nat} (h : Restores s.config (putCut s c k r) s.registry) :
    CrashAtomic s c k r :=
  fun random => ⟨(h random).1, Or.inl (h random).2⟩

theorem CrashAtomic.of_after {k : Nat}
    (h : Restores s.config (putCut s c k r) (putRegistry s c r)) : CrashAtomic s c k r :=
  fun random => ⟨(h random).1, Or.inr (h random).2⟩

/-- A power cut after the payload: the old registry is read back unless its waveform is gone. -/
theorem crashAtomic_payload {raw : Bytes} {t : CommandStore} (hs : s.Sound)
    (hput : PutWrite s c slot next) (hfrom : LoadedFrom s r raw t)
    (hreg : putRegistry s c r = next.registry)
    (hcut : putCut s c 1 r = r.save (s.config.payloadKey (UInt8.ofNat slot)) (timingsBytes c.timings)) :
    CrashAtomic s c 1 r ↔ ∀ old, s.get c.name = some old → old.timings = c.timings := by
  constructor
  · intro hatomic old hold
    obtain ⟨i, hfind, rfl⟩ := Option.map_eq_some_iff.mp hold
    rcases hput.target with ⟨hslot, hocc⟩ | ⟨hnone, -⟩
    · obtain rfl := Option.some.inj (hfind.symm.trans hslot)
      by_contra hdiff
      -- the index still has the checksum of the old waveform
      refine hput.after_payload_changed hfrom hocc hdiff none ?_
      have h := hatomic none
      rw [hcut, hreg] at h
      exact h
    · rw [hnone] at hfind
      cases hfind
  · intro hsame
    apply CrashAtomic.of_before
    rw [hcut]
    -- a new name goes to a free slot, whose payload no index describes
    refine hput.after_payload_same hs hfrom ?_
    intro hocc
    rcases hput.target with ⟨hslot, -⟩ | ⟨-, hfree⟩
    · exact hsame _ (Option.map_eq_some_iff.mpr ⟨slot, hslot, rfl⟩)
    · rw [hfree] at hocc
      cases hocc

/-- A power cut before the header: the new registry is read back if the header there fits it. -/
theorem crashAtomic_index {raw : Bytes} {t : CommandStore} (hs : s.Sound)
    (hput : PutWrite s c slot next)
    (hfrom : LoadedFrom s r raw t) (hreg : putRegistry s c r = next.registry)
    (hcut : putCut s c 2 r
      = (r.save (s.config.payloadKey (UInt8.ofNat slot)) (timingsBytes c.timings)).save
          next.config.indexKey next.indexRecord) :
    CrashAtomic s c 2 r ↔ ∃ raw, r.load s.config.headerKey StoredHeader.codec.width = some raw ∧
      (StoredHeader.codec.decode raw).slotCount = s.config.maxCommands := by
  rw [hput.config] at hcut
  obtain ⟨hsame, hwritable⟩ := hput.after_index hs hfrom
  constructor
  · intro hatomic
    have h := (hatomic none).1
    rw [hcut] at h
    exact ⟨raw, hfrom.header, hwritable none h⟩
  · rintro ⟨raw', hraw', hcount⟩
    obtain rfl := Option.some.inj (hfrom.header.symm.trans hraw')
    apply CrashAtomic.of_after
    rw [hcut, hreg]
    exact hsame hcount

/-- The extent of the promise in any sound store that its flash restores, one cut after another. -/
theorem crashAtomic_iff (hs : s.Sound) (hst : Stored Sound s.config r)
    (hrestores : Restores s.config r s.registry) (c : Command) (k : Nat) :
    CrashAtomic s c k r ↔
      (¬ s.Accepts c ∨ k = 0 ∨ 3 ≤ k ∨
        (k = 1 ∧ ∀ old, s.get c.name = some old → old.timings = c.timings) ∨
        (k = 2 ∧ ∃ raw, r.load s.config.headerKey StoredHeader.codec.width = some raw ∧
          (StoredHeader.codec.decode raw).slotCount = s.config.maxCommands)) := by
  cases hplan : s.putPlan c with
  | stop result =>
    have hrefused : ¬ s.Accepts c := by
      intro hacc
      obtain ⟨_, _, _, hwrite⟩ := putPlan_write_iff.mpr hacc
      rw [hplan] at hwrite
      cases hwrite
    refine ⟨fun _ => Or.inl hrefused, fun _ => CrashAtomic.of_before ?_⟩
    rw [putCut_of_stop hplan]
    exact hrestores
  | write payload next undone =>
    have hacc : s.Accepts c := putPlan_write_iff.mp ⟨_, _, _, hplan⟩
    obtain ⟨slot, rfl, hput⟩ := putWrite_of_plan hs hplan
    obtain ⟨raw, t, hfrom⟩ := hrestores.loadedFrom hst
    have hrec : next.records (some slot)
        = (s.config.payloadKey (UInt8.ofNat slot), timingsBytes c.timings) :: next.indexRecords := by
      rw [← hput.payloadRecord]
      rfl
    have hcut := putCut_of_write (r := r) hplan k
    have hreg := putRegistry_of_write (r := r) hplan
    rw [hrec] at hcut
    -- the cut is before the payload, the index, or the header, or after all of them
    rcases k with _ | _ | _ | k
    · refine ⟨fun _ => Or.inr (Or.inl rfl), fun _ => CrashAtomic.of_before ?_⟩
      rw [hcut]
      exact hrestores
    · rw [List.take_succ_cons, List.take_zero, Records.apply_cons, Records.apply_nil] at hcut
      rw [crashAtomic_payload hs hput hfrom hreg hcut]
      constructor
      · exact fun h => Or.inr (Or.inr (Or.inr (Or.inl ⟨rfl, h⟩)))
      · rintro (h | h | h | ⟨-, h⟩ | ⟨h, -⟩)
        · exact absurd hacc h
        · cases h
        · omega
        · exact h
        · cases h
    · rw [crashAtomic_index hs hput hfrom hreg hcut]
      constructor
      · exact fun h => Or.inr (Or.inr (Or.inr (Or.inr ⟨rfl, h⟩)))
      · rintro (h | h | h | ⟨h, -⟩ | ⟨-, h⟩)
        · exact absurd hacc h
        · cases h
        · omega
        · cases h
        · exact h
    · refine ⟨fun _ => Or.inr (Or.inr (Or.inl (by omega))), fun _ => CrashAtomic.of_after ?_⟩
      -- every save has landed, and cuts after that are all the same
      have hall : (next.indexRecords).take (k + 2) = next.indexRecords :=
        List.take_of_length_le (Nat.le_add_left 2 k)
      rw [List.take_succ_cons, hall, Records.apply_cons] at hcut
      rw [hcut, hreg]
      exact hput.after_all hs hfrom

end CrashAtomic

end CommandStore

namespace Session

open CommandStore

/-- **Crash atomicity of `put`, and where it ends.**  In every state a device can reach through
    operations, reboots and changes of configuration, with any saves failing, whose flash restores
    its registry: a power cut after `k` saves of a `put` leaves a flash that loads, as the registry
    before or the registry after, exactly if `put` refuses the command, or no save landed, or all
    three did, or only the payload landed and it is a new name or the waveform already stored, or
    payload and index landed and the header on flash states the configured number of slots. -/
theorem put_crash_atomic_iff {salt : UInt32} {cfg : Config} (hcfg : cfg.keySalt = salt)
    (lands : Nat → Bool) (random : Option BridgeId) {events : List Event}
    (hevents : ∀ e ∈ events, e.Under fun cfg => cfg.keySalt = salt) :
    let x := run lands (powerOn lands cfg random) events
    x.store.readOnly = false → Restores x.store.config x.flash.records x.store.registry →
    ∀ (c : Command) (k : Nat), CrashAtomic x.store c k x.flash.records ↔
      (¬ x.store.Accepts c ∨ k = 0 ∨ 3 ≤ k ∨
        (k = 1 ∧ ∀ old, x.store.get c.name = some old → old.timings = c.timings) ∨
        (k = 2 ∧ ∃ raw, x.flash.records.load x.store.config.headerKey StoredHeader.codec.width
            = some raw ∧ (StoredHeader.codec.decode raw).slotCount = x.store.config.maxCommands)) := by
  intro x hro hrestores c k
  have hP := preserved_sound fun cfg : Config => cfg.keySalt = salt
  have hkept : Kept _ Sound x := (Kept.powerOn hP hcfg random).run hP hevents
    fun c c' hc hc' => hc.trans hc'.symm
  exact crashAtomic_iff (hkept.ram hro) hkept.flash hrestores c k

/-- A fresh device with one slot. -/
def fresh : Session := powerOn (fun _ => true) ⟨1, 4, 200, 7⟩ none

/-- The same device once it has learned one command. -/
def learned : Session :=
  step (fun _ => true) fresh (.op (.put { name := ascii "a", timings := [350, -1050] }))

theorem learned_restores :
    Restores learned.store.config learned.flash.records learned.store.registry := by
  have hkept : Kept _ Sound fresh := Kept.powerOn (preserved_sound fun _ => True) trivial none
  have hslots : fresh.store.slots = List.replicate 1 {} := by decide +kernel
  obtain ⟨payload, next, undone, hplan⟩ := putPlan_write_iff.mpr
    (show fresh.store.Accepts { name := ascii "a", timings := [350, -1050] } by decide +kernel)
  have hplan' : (Op.put { name := ascii "a", timings := [350, -1050] }).plan fresh.store
      = .write payload next undone := hplan
  have hok : ((Op.put { name := ascii "a", timings := [350, -1050] }).run (faulty fun _ => true)
      fresh.store fresh.flash).1 = .ok := by decide +kernel
  obtain ⟨hstore, hrestores, -⟩ := op_restores hkept.ram (by decide +kernel)
    (fun _ => Coherent.of_empty hslots) hplan' hok
  have hlearned : learned.store = next := hstore
  rw [hlearned]
  exact hrestores

/-- A relearn with another waveform whose payload lands and whose index does not: the flash holds
    neither the old command nor the new one. -/
theorem relearn_not_crash_atomic :
    learned.store.readOnly = false ∧
    Restores learned.store.config learned.flash.records learned.store.registry ∧
    ¬ CrashAtomic learned.store { name := ascii "a", timings := [1, 2, 3] } 1 learned.flash.records := by
  have hP := preserved_sound fun _ => True
  have hkept : Kept _ Sound learned := Kept.op hP (Kept.powerOn hP trivial none) _
  have hro : learned.store.readOnly = false := by decide +kernel
  refine ⟨hro, learned_restores, fun h => ?_⟩
  have hget : learned.store.get (ascii "a")
      = some { commandId := 1, name := ascii "a", timings := [350, -1050] } := by decide +kernel
  rcases (crashAtomic_iff (hkept.ram hro) hkept.flash learned_restores _ _).mp h with
    hrefused | hk | hk | ⟨-, hsame⟩ | ⟨hk, -⟩
  · exact hrefused (by decide +kernel)
  · cases hk
  · omega
  · exact absurd (hsame _ hget) (by decide)
  · cases hk

/-- Cut after its first save, learning the stored waveform again changes nothing. -/
theorem put_crash_atomic_relearn_same :
    CrashAtomic learned.store { name := ascii "a", timings := [350, -1050], gapUs := 9 } 1
      learned.flash.records := by
  have hevents : ∀ e ∈ [Event.op (.put { name := ascii "a", timings := [350, -1050] })],
      e.Under fun config => config.keySalt = 7 := by simp [Event.Under]
  have hsalt : (⟨1, 4, 200, 7⟩ : Config).keySalt = 7 := rfl
  have hiff := put_crash_atomic_iff hsalt (fun _ => true) none hevents (by decide +kernel)
    learned_restores
  refine (hiff _ _).mpr (Or.inr (Or.inr (Or.inr (Or.inl ⟨rfl, ?_⟩))))
  intro old hold
  have hget : learned.store.get (ascii "a")
      = some { commandId := 1, name := ascii "a", timings := [350, -1050] } := by decide +kernel
  obtain rfl := Option.some.inj (hget.symm.trans hold)
  rfl

end Session

end RfCloner
