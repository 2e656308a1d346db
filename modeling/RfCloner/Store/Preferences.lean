/-
  The store behind cached handles: `PreferencesBackend` (rf_cloner.cpp).

  ESPHome's preferences are reached through handles that nobody frees, so the backend keeps the
  handles it has made, one for each key and length (`handle_`).  A relearn with a waveform of another
  length still makes another handle.  The backend is one object for all the instances of a device.
  `handles_bounded` says that this has an end, whatever is on flash, however many instances there are
  and whatever is done to their stores, and that no store can tell the kept handles from fresh ones.

  `bootRequests` lists what `begin` asks for; `readHeader_of_requests` says that it looks at nothing
  else.
-/
import RfCloner.Lib.HandleCache
import RfCloner.Store.KeySpace
import Mathlib.Algebra.BigOperators.Group.Finset.Basic

namespace RfCloner

open FixedCodec StorageBackend

/-! ## What a boot asks for -/

namespace CommandStore

section Requests

/-- The payloads that the slot loop of `load_index_` asks for. -/
def payloadRequests (cfg : Config) (raw : Bytes) (m : UInt8) : List (UInt32 × Nat) :=
  ((List.range m.toNat).filter fun i =>
    (storedSlotAt raw i).named && (storedSlotAt raw i).fits cfg i).map fun i =>
      (cfg.payloadKey (UInt8.ofNat i), (storedSlotAt raw i).pulseCount.toNat * sle32.width)

/-- What `load_index_` asks for. -/
def indexRequests (load : Loader) (cfg : Config) (m : UInt8) (len : UInt16) :
    List (UInt32 × Nat) :=
  if len.toNat ≠ indexBytesFor m then []
  else
    (cfg.indexKey, indexBytesFor m) ::
      match load cfg.indexKey (indexBytesFor m) with
      | none => []
      | some raw => if !indexIntact raw then [] else payloadRequests cfg raw m

/-- What `begin` asks for, once a header record has been read. -/
def headerRequests (load : Loader) (cfg : Config) (raw : Bytes) : List (UInt32 × Nat) :=
  let header := StoredHeader.codec.decode raw
  let expectedCrc := crc16Ccitt (raw.take (StoredHeader.codec.width - crcBytes))
  if header.magic ≠ storeMagic ∨ header.crc16 ≠ expectedCrc ∨ header.slotCount = 0 then []
  else if header.formatVersion ≠ storeFormatVersion then []
  else indexRequests load cfg header.slotCount header.indexBytes

/-- What `begin` asks for. -/
def bootRequests (load : Loader) (cfg : Config) : List (UInt32 × Nat) :=
  (cfg.headerKey, StoredHeader.codec.width) ::
    match load cfg.headerKey StoredHeader.codec.width with
    | none => []
    | some raw => headerRequests load cfg raw

variable {load load' : Loader} {cfg : Config} {raw : Bytes} {m : UInt8}

/-- Two readers of the flash that agree on some requests. -/
def AgreeAt (requests : List (UInt32 × Nat)) (load load' : Loader) : Prop :=
  ∀ r ∈ requests, load r.1 r.2 = load' r.1 r.2

theorem slotOutcome_of_requests (h : AgreeAt (payloadRequests cfg raw m) load load') {i : Nat}
    (hi : i < m.toNat) :
    slotOutcome load cfg i (storedSlotAt raw i) = slotOutcome load' cfg i (storedSlotAt raw i) := by
  rw [slotOutcome, slotOutcome]
  split
  · rfl
  rename_i hnamed
  split
  · rfl
  · rename_i hfits
    have hasked : (cfg.payloadKey (UInt8.ofNat i),
        (storedSlotAt raw i).pulseCount.toNat * sle32.width) ∈ payloadRequests cfg raw m := by
      refine List.mem_map.mpr ⟨i, List.mem_filter.mpr ⟨List.mem_range.mpr hi, ?_⟩, rfl⟩
      simp at hnamed hfits
      rw [hnamed, hfits, Bool.and_self]
    rw [StoredSlot.waveform, StoredSlot.waveform, h _ hasked]

/-- The slot loop, by the outcomes of its slots. -/
theorem loadSlots_of_outcomes (n : Nat) {acc : LoadReport × CommandStore} (hacc : acc.2.config = cfg)
    (h : ∀ i < n, slotOutcome load cfg i (storedSlotAt raw i)
      = slotOutcome load' cfg i (storedSlotAt raw i)) :
    loadSlots load raw n acc = loadSlots load' raw n acc := by
  induction n with
  | zero => rfl
  | succ n ih =>
    have hconfig := (loadSlots_keeps load' raw n acc).1.trans hacc
    rw [loadSlots_succ, loadSlots_succ, ih fun i hi => h i (by omega)]
    unfold loadSlot
    dsimp only
    rw [hconfig, h n (by omega)]

theorem loadIndex_of_requests {s : CommandStore} {len : UInt16} (report : LoadReport)
    (h : AgreeAt (indexRequests load s.config m len) load load') :
    s.loadIndex load m len report = s.loadIndex load' m len report := by
  rw [loadIndex, loadIndex]
  rw [indexRequests] at h
  split at h
  · rename_i hlen
    rw [if_pos hlen, if_pos hlen]
  rename_i hlen
  rw [if_neg hlen, if_neg hlen, ← h _ List.mem_cons_self]
  cases hraw : load s.config.indexKey (indexBytesFor m) with
  | none => rfl
  | some raw =>
    rw [hraw] at h
    dsimp only at h ⊢
    split
    · rfl
    · rename_i hintact
      rw [if_neg hintact] at h
      have hpayloads : AgreeAt (payloadRequests s.config raw m) load load' := fun r hr =>
        h r (List.mem_cons_of_mem _ hr)
      have hloop : ∀ acc : LoadReport × CommandStore, acc.2.config = s.config →
          loadSlots load raw m.toNat acc = loadSlots load' raw m.toNat acc := fun acc hacc =>
        loadSlots_of_outcomes m.toNat hacc fun i hi => slotOutcome_of_requests hpayloads hi
      rw [hloop _ rfl]

/-- **`begin` looks at nothing else**: the list of its requests is complete. -/
theorem readHeader_of_requests {s : CommandStore}
    (h : AgreeAt (headerRequests load s.config raw) load load') :
    s.readHeader load raw = s.readHeader load' raw := by
  rw [readHeader, readHeader]
  rw [headerRequests] at h
  dsimp only at h ⊢
  split
  · rfl
  rename_i hpass
  rw [if_neg hpass] at h
  split
  · rfl
  rename_i hversion
  rw [if_neg hversion] at h
  exact loadIndex_of_requests _ h

end Requests

/-! ## What can be asked for at all -/

section Bound

/-- The requests of a session with the given limits over flash with an index for `m` slots: the
    header, the index it found and the index it writes, and for each slot the waveforms that fit. -/
def possibleRequests (cfg : Config) (m : UInt8) : List (UInt32 × Nat) :=
  (cfg.headerKey, StoredHeader.codec.width) :: (cfg.indexKey, indexBytesFor m) ::
    (cfg.indexKey, indexBytesFor cfg.maxCommands) ::
      (List.range cfg.maxCommands.toNat).flatMap fun i =>
        (List.range cfg.maxPulses.toNat).map fun n =>
          (cfg.payloadKey (UInt8.ofNat i), (n + 1) * sle32.width)

theorem length_possibleRequests (cfg : Config) (m : UInt8) :
    (possibleRequests cfg m).length = 3 + cfg.maxCommands.toNat * cfg.maxPulses.toNat := by
  simp [possibleRequests, List.length_flatMap]
  omega

variable {cfg : Config} {m : UInt8}

theorem mem_possibleRequests_payload {i len : Nat} (hi : i < cfg.maxCommands.toNat) (hpos : 0 < len)
    (hlen : len ≤ cfg.maxPulses.toNat) :
    (cfg.payloadKey (UInt8.ofNat i), len * sle32.width) ∈ possibleRequests cfg m := by
  refine List.mem_cons_of_mem _ (List.mem_cons_of_mem _ (List.mem_cons_of_mem _ ?_))
  refine List.mem_flatMap.mpr ⟨i, List.mem_range.mpr hi, ?_⟩
  refine List.mem_map.mpr ⟨len - 1, List.mem_range.mpr (by omega), ?_⟩
  rw [Nat.sub_add_cancel hpos]

theorem payloadRequests_possible {raw : Bytes} {n : UInt8} :
    ∀ r ∈ payloadRequests cfg raw n, r ∈ possibleRequests cfg m := by
  intro r hr
  obtain ⟨i, hi, rfl⟩ := List.mem_map.mp hr
  have hslot := (List.mem_filter.mp hi).2
  rw [Bool.and_eq_true] at hslot
  obtain ⟨hnamed, hfits⟩ := hslot
  generalize storedSlotAt raw i = slot at hnamed hfits ⊢
  have hpos : slot.pulseCount ≠ 0 := by
    simp [StoredSlot.named] at hnamed
    exact hnamed.2
  have hpos' : slot.pulseCount.toNat ≠ 0 := fun h => hpos (UInt16.toNat_inj.mp h)
  simp [StoredSlot.fits, UInt16.le_iff_toNat_le] at hfits
  exact mem_possibleRequests_payload hfits.1 (by omega) hfits.2

/-- What a boot asks for is among it. -/
theorem bootRequests_possible (load : Loader) (cfg : Config) :
    ∃ m, ∀ r ∈ bootRequests load cfg, r ∈ possibleRequests cfg m := by
  rw [bootRequests]
  cases hraw : load cfg.headerKey StoredHeader.codec.width with
  | none =>
    refine ⟨0, fun r hr => ?_⟩
    rw [List.mem_singleton.mp hr]
    exact List.mem_cons_self
  | some raw =>
    refine ⟨(StoredHeader.codec.decode raw).slotCount, fun r hr => ?_⟩
    rcases List.mem_cons.mp hr with rfl | hr
    · exact List.mem_cons_self
    dsimp only [headerRequests, indexRequests] at hr
    split at hr
    · cases hr
    split at hr
    · cases hr
    split at hr
    · cases hr
    rcases List.mem_cons.mp hr with rfl | hr
    · exact List.mem_cons_of_mem _ List.mem_cons_self
    split at hr
    · cases hr
    split at hr
    · cases hr
    · exact payloadRequests_possible r hr

variable {s next undone : CommandStore} {payload : Option Nat} {op : Op}

/-- The waveform that an operation writes fits the limits, and what is left if the write fails is a
    store with the same limits. -/
theorem fits_of_write (hs : s.Sized) (h : op.plan s = .write payload next undone) :
    undone.config = s.config ∧ undone.Sized ∧ ∀ i, payload = some i →
      0 < (next.slot i).timings.length ∧ (next.slot i).timings.length ≤ s.config.maxPulses.toNat := by
  have hset : ∀ {i : Nat} {c d : Command}, ({ s with slots := (s.slots.set i c).set i d } :
      CommandStore).Sized := by
    intro i c d
    rw [Sized, List.length_set, List.length_set]
    exact hs
  have hget : ∀ {t : CommandStore} {i : Nat} {c : Command}, i < s.slots.length →
      t.slots = s.slots.set i c → t.slot i = c := by
    intro t i c hi hslots
    rw [slot, hslots, List.getD_eq_getElem?_getD, List.getElem?_set_self hi]
    rfl
  -- most operations write no waveform
  have hnone : ∀ {Q : Nat → Prop} (i : Nat), (none : Option Nat) = some i → Q i := by
    intro Q i hi
    cases hi
  cases op with
  | put c =>
    have hslot := (sized_of_write hs h).2.2
    obtain ⟨-, -, hpos, hlen, slot, overwriting, id, rev, -, -, -, rfl, rfl, rfl⟩ :=
      putPlan_eq_write h
    refine ⟨rfl, hset, fun i hi => ?_⟩
    obtain rfl := Option.some.inj hi
    rw [hget (hslot slot rfl) rfl]
    exact ⟨hpos, hlen⟩
  | rename id name =>
    obtain ⟨-, -, slot, rev, -, -, -, rfl, -, rfl⟩ := renamePlan_eq_write h
    exact ⟨rfl, hset, hnone⟩
  | remove name =>
    obtain ⟨slot, -, h'⟩ := removePlan_eq_write h
    obtain ⟨-, slot', rev, -, -, rfl, -, rfl⟩ := removeByIdPlan_eq_write h'
    exact ⟨rfl, hset, hnone⟩
  | removeById id =>
    obtain ⟨-, slot, rev, -, -, rfl, -, rfl⟩ := removeByIdPlan_eq_write h
    exact ⟨rfl, hset, hnone⟩
  | clearAll =>
    obtain ⟨-, -, rev, -, rfl, -, rfl⟩ := clearAllPlan_eq_write h
    exact ⟨rfl, hs, hnone⟩
  | factoryReset random =>
    obtain ⟨-, rfl, -, rfl⟩ := factoryResetPlan_eq_write h
    exact ⟨rfl, List.length_replicate, hnone⟩
  | restoreBegin bridgeId id =>
    obtain ⟨-, -, -, -, rev, -, rfl, -, rfl⟩ := restoreBeginPlan_eq_write h
    exact ⟨rfl, hs, hnone⟩
  | importCommand c =>
    have hslot := (sized_of_write hs h).2.2
    obtain ⟨-, -, -, hadm, -, -, -, slot, rev, -, -, -, rfl, rfl, rfl⟩ :=
      importCommandPlan_eq_write h
    refine ⟨rfl, hset, fun i hi => ?_⟩
    obtain rfl := Option.some.inj hi
    rw [hget (hslot slot rfl) rfl]
    exact ⟨hadm.timings_pos, hadm.timings_le⟩
  | restoreCommit source =>
    obtain ⟨-, -, -, rev, -, rfl, -, rfl⟩ := restoreCommitPlan_eq_write h
    exact ⟨rfl, hs, hnone⟩

/-- What a write asks for is among it. -/
theorem records_possible (next : CommandStore)
    (hfits : ∀ i, payload = some i → i < next.config.maxCommands.toNat ∧
      0 < (next.slot i).timings.length ∧
      (next.slot i).timings.length ≤ next.config.maxPulses.toNat) :
    ∀ w ∈ next.records payload, (w.1, w.2.length) ∈ possibleRequests next.config m := by
  intro w hw
  rcases List.mem_append.mp hw with hpay | hindex
  · obtain ⟨i, hi, rfl⟩ := Option.map_eq_some_iff.mp (Option.mem_toList.mp hpay)
    obtain ⟨hslot, hpos, hlen⟩ := hfits i hi
    rw [payloadRecord, length_timingsBytes]
    exact mem_possibleRequests_payload hslot hpos hlen
  · rcases List.mem_cons.mp hindex with rfl | hheader
    · rw [length_indexRecord]
      exact List.mem_cons_of_mem _ (List.mem_cons_of_mem _ List.mem_cons_self)
    · rw [List.mem_singleton.mp hheader, length_headerRecord]
      exact List.mem_cons_self

end Bound

end CommandStore

/-! ## The instances of a device -/

/-- What an instance shows: what `begin` has reported, what the operations have returned, and the
    store. -/
structure Instance where
  report : LoadReport
  results : List StoreResult
  store : CommandStore

namespace Instance

variable {σ : Type} (B : StorageBackend UInt32 σ)

/-- `begin`, as `setup` calls it. -/
def start (cfg : Config) (random : Option BridgeId) (io : σ) : Instance × σ :=
  let out := CommandStore.boot B cfg random io
  (⟨out.1, [], out.2.1⟩, out.2.2)

/-- One operation. -/
def step (x : Instance) (op : Op) (io : σ) : Instance × σ :=
  let out := op.run B x.store io
  ({ x with results := x.results ++ [out.1], store := out.2.1 }, out.2.2)

end Instance

/-- What happens to the instances of a device. -/
inductive UptimeEvent (ι : Type) where
  /-- `setup`, which is called once for each instance. -/
  | setup (i : ι) (random : Option BridgeId)
  /-- An operation on the store of an instance. -/
  | op (i : ι) (op : Op)

/-- The instances that have been set up, over the one storage of the device. -/
structure Uptime (ι σ : Type) where
  instances : ι → Option Instance
  io : σ

namespace Uptime

open CommandStore

variable {ι : Type} [DecidableEq ι]

/-- Before anything is set up. -/
def powerOn {σ : Type} (io : σ) : Uptime ι σ := ⟨fun _ => none, io⟩

/-- One event.  `loads` is what the loads of `begin` leave of the storage. -/
def step {σ : Type} (B : StorageBackend UInt32 σ) (loads : Config → σ → σ) (cfg : ι → Config)
    (x : Uptime ι σ) : UptimeEvent ι → Uptime ι σ
  | .setup i random =>
    match x.instances i with
    | some _ => x
    | none =>
      let out := Instance.start B (cfg i) random (loads (cfg i) x.io)
      ⟨Function.update x.instances i (some out.1), out.2⟩
  | .op i op =>
    match x.instances i with
    | some s =>
      let out := s.step B op x.io
      ⟨Function.update x.instances i (some out.1), out.2⟩
    -- a store that has not been configured has no backend, and refuses
    | none => x

variable {η μ : Type} (P : HandleStorage UInt32 η μ)

/-- Over fresh handles, loads leave nothing. -/
def fresh (cfg : ι → Config) (x : Uptime ι μ) (events : List (UptimeEvent ι)) : Uptime ι μ :=
  events.foldl (step P.direct (fun _ io => io) cfg) x

/-- The loads of `begin` leave their handles among those that are kept. -/
def keepLoads (cfg : Config) (io : List (CachedHandle UInt32 η) × μ) :
    List (CachedHandle UInt32 η) × μ :=
  (P.loaded (bootRequests (fun key len => P.cached.load key len io) cfg) io.1, io.2)

/-- Over the handles that `PreferencesBackend` keeps. -/
def kept (cfg : ι → Config) (x : Uptime ι (List (CachedHandle UInt32 η) × μ))
    (events : List (UptimeEvent ι)) : Uptime ι (List (CachedHandle UInt32 η) × μ) :=
  events.foldl (step P.cached (keepLoads P) cfg) x

section Alike

variable {P} {cache : List (CachedHandle UInt32 η)} {cfg : Config}

/-- An operation does over kept handles what it does over fresh ones, and asks for nothing but what it
    can. -/
theorem step_alike (hmade : P.Made cache) (s : Instance) (hsized : s.store.Sized) (op : Op) (m : UInt8)
    (io : μ) :
    ∃ cache', P.Made cache' ∧
      (s.step P.cached op (cache, io)).1 = (s.step P.direct op io).1 ∧
      (s.step P.cached op (cache, io)).2 = (cache', (s.step P.direct op io).2) ∧
      (s.step P.direct op io).1.store.config = s.store.config ∧
      (s.step P.direct op io).1.store.Sized ∧
      ∀ r ∈ cache'.map CachedHandle.request,
        r ∈ cache.map CachedHandle.request ∨ r ∈ possibleRequests s.store.config m := by
  unfold Instance.step
  cases hplan : op.plan s.store with
  | stop result =>
    rw [Op.run_of_stop hplan, Op.run_of_stop hplan]
    exact ⟨cache, hmade, rfl, rfl, rfl, hsized, fun r hr => .inl hr⟩
  | write payload next undone =>
    obtain ⟨hconfig, hnext, hslot⟩ := sized_of_write hsized hplan
    obtain ⟨hconfig', hundone, hfits⟩ := fits_of_write hsized hplan
    obtain ⟨cache', hsaves, hmade', hrequests⟩ := hmade.saveAll_cached (next.records payload) io
    have hasked : ∀ w ∈ next.records payload,
        (w.1, w.2.length) ∈ possibleRequests s.store.config m := by
      rw [← hconfig]
      refine records_possible next fun i hi => ?_
      rw [hconfig, ← show s.store.slots.length = s.store.config.maxCommands.toNat from hsized]
      exact ⟨hslot i hi, hfits i hi⟩
    have hpossible : ∀ r ∈ cache'.map CachedHandle.request,
        r ∈ cache.map CachedHandle.request ∨ r ∈ possibleRequests s.store.config m := by
      intro r hr
      rcases hrequests r hr with hold | ⟨w, hw, rfl⟩
      · exact .inl hold
      · exact .inr (hasked w hw)
    rw [run_of_write _ hplan, run_of_write _ hplan, hsaves]
    refine ⟨cache', hmade', ?_⟩
    rcases P.direct.saveAll (next.records payload) io with ⟨_ | _, io'⟩
    · exact ⟨rfl, rfl, hconfig', hundone, hpossible⟩
    · exact ⟨rfl, rfl, hconfig, hnext, hpossible⟩

/-- An instance boots alike, whatever handles are there: a kept handle answers what `begin` asks for as
    a fresh one does, and `begin` looks at nothing else. -/
theorem start_alike (hmade : P.Made cache) (cfg : Config) (random : Option BridgeId) (io : μ) :
    ∃ m cache', P.Made cache' ∧
      (Instance.start P.cached cfg random (keepLoads P cfg (cache, io))).1
        = (Instance.start P.direct cfg random io).1 ∧
      (Instance.start P.cached cfg random (keepLoads P cfg (cache, io))).2
        = (cache', (Instance.start P.direct cfg random io).2) ∧
      (Instance.start P.direct cfg random io).1.store.config = cfg ∧
      (Instance.start P.direct cfg random io).1.store.Sized ∧
      ∀ r ∈ cache'.map CachedHandle.request,
        r ∈ cache.map CachedHandle.request ∨ r ∈ possibleRequests cfg m := by
  have hload : (fun key len => P.cached.load key len (cache, io))
      = fun key len => P.direct.load key len io := by
    funext key len
    exact hmade.load_cached key len io
  obtain ⟨hloaded, hrequests⟩ := hmade.loaded (P := P)
    (bootRequests (fun key len => P.direct.load key len io) cfg)
  obtain ⟨m, hpossible⟩ := bootRequests_possible (fun key len => P.direct.load key len io) cfg
  refine ⟨m, ?_⟩
  unfold keepLoads
  rw [hload]
  dsimp only
  generalize P.loaded _ cache = asked at hloaded hrequests ⊢
  have hasked : ∀ r ∈ asked.map CachedHandle.request,
      r ∈ cache.map CachedHandle.request ∨ r ∈ possibleRequests cfg m := fun r hr =>
    ((hrequests r).mp hr).imp_right (hpossible r)
  have hsame : ∀ key len, P.cached.load key len (asked, io) = P.direct.load key len io :=
    fun key len => hloaded.load_cached key len io
  have hconfigured : (configure cfg).Sized := List.length_replicate
  unfold Instance.start
  cases hheader : P.direct.load cfg.headerKey StoredHeader.codec.width io with
  | none =>
    rw [boot_of_no_header cfg P.direct io random hheader,
      boot_of_no_header cfg P.cached (asked, io) random ((hsame _ _).trans hheader),
      writeIndex_eq_saveAll, writeIndex_eq_saveAll, ← records_none]
    obtain ⟨cache', hsaves, hmade', hrequests'⟩ :=
      hloaded.saveAll_cached (((configure cfg).mintIdentity random).records none) io
    rw [hsaves]
    refine ⟨cache', hmade', rfl, rfl, rfl, hconfigured, fun r hr => ?_⟩
    rcases hrequests' r hr with hold | ⟨w, hw, rfl⟩
    · exact hasked r hold
    · refine .inr (records_possible ((configure cfg).mintIdentity random) (fun i hi => ?_) w hw)
      cases hi
  | some raw =>
    rw [boot_of_header cfg P.direct io random hheader,
      boot_of_header cfg P.cached (asked, io) random ((hsame _ _).trans hheader)]
    have hread : (configure cfg).readHeader (fun key len => P.cached.load key len (asked, io)) raw
        = (configure cfg).readHeader (fun key len => P.direct.load key len io) raw :=
      readHeader_of_requests fun r _ => hsame r.1 r.2
    rw [hread]
    exact ⟨asked, hloaded, rfl, rfl, (readHeader_keeps _ _ _).1,
      readHeader_sized _ hconfigured raw, hasked⟩

end Alike

/-- The instances of a device over kept handles, beside the same over fresh ones; `m i` is for how many
    slots the index was that instance `i` has found. -/
structure Mirrors (cfg : ι → Config) (m : ι → UInt8)
    (x : Uptime ι (List (CachedHandle UInt32 η) × μ)) (y : Uptime ι μ) : Prop where
  instances : x.instances = y.instances
  medium : x.io.2 = y.io
  made : P.Made x.io.1
  possible : ∀ r ∈ x.io.1.map CachedHandle.request,
    ∃ i, (y.instances i).isSome = true ∧ r ∈ possibleRequests (cfg i) (m i)
  limits : ∀ i s, y.instances i = some s → s.store.config = cfg i ∧ s.store.Sized

section Mirrors

variable {P} {cfg : ι → Config} {m : ι → UInt8} {x : Uptime ι (List (CachedHandle UInt32 η) × μ)}
  {y : Uptime ι μ}

/-- One instance of the device has changed alike on both sides. -/
theorem Mirrors.update (h : Mirrors P cfg m x y) {i : ι} {s : Instance} {n : UInt8}
    {cache : List (CachedHandle UInt32 η)} {io : μ} (hn : (y.instances i).isSome = true → n = m i)
    (hmade : P.Made cache) (hconfig : s.store.config = cfg i) (hsized : s.store.Sized)
    (hasked : ∀ r ∈ cache.map CachedHandle.request,
      r ∈ x.io.1.map CachedHandle.request ∨ r ∈ possibleRequests (cfg i) n) :
    Mirrors P cfg (Function.update m i n) ⟨Function.update x.instances i (some s), cache, io⟩
      ⟨Function.update y.instances i (some s), io⟩ := by
  have hother : ∀ {j}, j ≠ i → Function.update y.instances i (some s) j = y.instances j ∧
      Function.update m i n j = m j := fun hj =>
    ⟨Function.update_of_ne hj _ _, Function.update_of_ne hj _ _⟩
  have hself : Function.update y.instances i (some s) i = some s ∧ Function.update m i n i = n :=
    ⟨Function.update_self _ _ _, Function.update_self _ _ _⟩
  refine ⟨by rw [h.instances], rfl, hmade, fun r hr => ?_, fun j t ht => ?_⟩
  · show ∃ j, (Function.update y.instances i (some s) j).isSome = true ∧ _
    rcases hasked r hr with hold | hnew
    · obtain ⟨j, hj, hpossible⟩ := h.possible r hold
      refine ⟨j, ?_⟩
      by_cases hji : j = i
      · subst hji
        rw [hself.1, hself.2, hn hj]
        exact ⟨rfl, hpossible⟩
      · rw [(hother hji).1, (hother hji).2]
        exact ⟨hj, hpossible⟩
    · refine ⟨i, ?_⟩
      rw [hself.1, hself.2]
      exact ⟨rfl, hnew⟩
  · change Function.update y.instances i (some s) j = some t at ht
    by_cases hji : j = i
    · subst hji
      rw [hself.1] at ht
      obtain rfl := Option.some.inj ht
      exact ⟨hconfig, hsized⟩
    · rw [(hother hji).1] at ht
      exact h.limits j t ht

/-- **One event**, on any of the instances. -/
theorem Mirrors.step (h : Mirrors P cfg m x y) (event : UptimeEvent ι) :
    ∃ m', Mirrors P cfg m' (x.step P.cached (keepLoads P) cfg event)
      (y.step P.direct (fun _ io => io) cfg event) := by
  obtain ⟨instances, cache, medium⟩ := x
  obtain ⟨instances', io⟩ := y
  obtain rfl : instances = instances' := h.instances
  obtain rfl : medium = io := h.medium
  cases event with
  | setup i random =>
    unfold Uptime.step
    dsimp only
    cases hi : instances i with
    | some s => exact ⟨m, h⟩
    | none =>
      obtain ⟨n, cache', hmade, hinstance, hio, hconfig, hsized, hasked⟩ :=
        start_alike h.made (cfg i) random medium
      dsimp only
      rw [hinstance, hio]
      refine ⟨_, h.update (n := n) (fun hsome => ?_) hmade hconfig hsized hasked⟩
      rw [show (instances i).isSome = false by rw [hi]; rfl] at hsome
      cases hsome
  | op i op =>
    unfold Uptime.step
    dsimp only
    cases hi : instances i with
    | none => exact ⟨m, h⟩
    | some s =>
      obtain ⟨hlimits, hsized⟩ := h.limits i s hi
      obtain ⟨cache', hmade, hinstance, hio, hconfig, hsized', hasked⟩ :=
        step_alike h.made s hsized op (m i) medium
      dsimp only
      rw [hinstance, hio]
      rw [hlimits] at hconfig hasked
      exact ⟨_, h.update (n := m i) (fun _ => rfl) hmade hconfig hsized' hasked⟩

theorem Mirrors.run (h : Mirrors P cfg m x y) (events : List (UptimeEvent ι)) :
    ∃ m', Mirrors P cfg m' (x.kept P cfg events) (y.fresh P cfg events) := by
  induction events generalizing x y m with
  | nil => exact ⟨m, h⟩
  | cons event events ih =>
    obtain ⟨m', h'⟩ := h.step event
    exact ih h'

omit [DecidableEq ι] in
theorem mirrors_powerOn (io : μ) :
    Mirrors P cfg (fun _ => 0) (powerOn ([], io)) (powerOn io) :=
  ⟨rfl, rfl, HandleStorage.made_nil, fun r hr => (by cases hr), fun i s hs => (by cases hs)⟩

omit [DecidableEq ι] in
/-- There are no more handles than the instances can ask for. -/
theorem Mirrors.length_le [Fintype ι] (h : Mirrors P cfg m x y) :
    x.io.1.length ≤ ∑ i, (3 + (cfg i).maxCommands.toNat * (cfg i).maxPulses.toNat) := by
  have hpossible : ∀ r ∈ x.io.1.map CachedHandle.request,
      r ∈ (Finset.univ : Finset ι).toList.flatMap fun i => possibleRequests (cfg i) (m i) := by
    intro r hr
    obtain ⟨i, -, hi⟩ := h.possible r hr
    exact List.mem_flatMap.mpr ⟨i, Finset.mem_toList.mpr (Finset.mem_univ i), hi⟩
  have hle := (List.subperm_of_subset h.made.nodup hpossible).length_le
  rw [List.length_map, List.length_flatMap] at hle
  simp only [length_possibleRequests] at hle
  rwa [Finset.sum_map_toList] at hle

end Mirrors

end Uptime

/-- **The handles are bounded, and cannot be told from fresh ones.**  Whatever is on flash, and in
    whatever order the instances of a device are set up and operated, each of them reports, returns
    and keeps in RAM, and the device leaves on flash, what it would with a fresh handle for each
    access.  The backend holds one handle for each key and length, of which there are for each
    instance at most those of the header, of two indexes, and of each slot's waveforms of every
    length that fits. -/
theorem handles_bounded {ι η μ : Type} [Fintype ι] [DecidableEq ι] (P : HandleStorage UInt32 η μ)
    (cfg : ι → Config) (events : List (UptimeEvent ι)) (io : μ) :
    let x := (Uptime.powerOn ([], io)).kept P cfg events
    let y := (Uptime.powerOn io).fresh P cfg events
    x.instances = y.instances ∧ x.io.2 = y.io ∧
    (x.io.1.map CachedHandle.request).Nodup ∧ (∀ c ∈ x.io.1, c.handle = P.make c.len c.key) ∧
    x.io.1.length ≤ ∑ i, (3 + (cfg i).maxCommands.toNat * (cfg i).maxPulses.toNat) := by
  intro x y
  obtain ⟨m, h⟩ := (Uptime.mirrors_powerOn io : Uptime.Mirrors P cfg _ _ _).run events
  exact ⟨h.instances, h.medium, h.made.nodup, h.made.handle, h.length_le⟩

end RfCloner
