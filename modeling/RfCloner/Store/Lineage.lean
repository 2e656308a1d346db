/-
  The life of a logical bridge over any number of devices.

  A bridge identity `B` is minted by one device and, through a restore, adopted by others.  Every
  device reports its revision with its identity, and a reader takes an equal revision to mean an
  equal registry.  `Life` is one run of it: the current device, operated and rebooted on flash where
  any save may fail, replaced by fresh hardware at any time, and everything shown so far.

  The law (`Life.revision_never_repeats`) needs the local counter of a device to be above all that
  was published for `B` whenever the device starts to speak for `B` with no restore open.
  `Life.Steady` is when it is; a `clear_all` that abandons a restore on replacement hardware is the
  step that breaks it.
-/
import RfCloner.Store.Durable

namespace RfCloner

open FixedCodec StorageBackend CommandStore

/-! ## What is shown -/

/-- What a device reports about its registry. -/
structure Status where
  bridgeId : BridgeId
  nextCommandId : UInt32
  revision : UInt32
  restoreIncomplete : Bool
  commands : List Command
  deriving DecidableEq, Repr

namespace Status

/-- A report under identity `B` with no restore open. -/
def Published (B : BridgeId) (st : Status) : Prop :=
  st.bridgeId = B ∧ st.restoreIncomplete = false

instance (B : BridgeId) (st : Status) : Decidable (st.Published B) :=
  inferInstanceAs (Decidable (_ ∧ _))

/-- For `B`, the later report has no smaller revision, and an equal one only of the same registry. -/
def Follows (B : BridgeId) (later earlier : Status) : Prop :=
  earlier.Published B → later.Published B →
    earlier.revision ≤ later.revision ∧ (earlier.revision = later.revision → earlier = later)

instance (B : BridgeId) (later earlier : Status) : Decidable (Follows B later earlier) :=
  inferInstanceAs (Decidable (_ → _))

/-- The report of a registry that has just been minted. -/
def minted (id : BridgeId) : Status := ⟨id, commandIdFirst, revisionInitial, false, []⟩

/-- Only a registry that has just been minted has the first revision. -/
def Young (st : Status) : Prop :=
  revisionInitial ≤ st.revision ∧ (st.revision = revisionInitial → st = minted st.bridgeId)

/-- The highest revision published for `B` among the reports. -/
def highest (B : BridgeId) (shown : List Status) : Nat :=
  ((shown.filter fun st => st.Published B).map fun st => st.revision.toNat).foldr max 0

/-- The report can be added to those shown so far. -/
def Fits (B : BridgeId) (shown : List Status) (st : Status) : Prop :=
  st.Published B → ∀ p ∈ shown, p.Published B → p.revision < st.revision ∨ p = st

variable {B : BridgeId} {shown : List Status} {st p : Status}

theorem le_foldr_max {l : List Nat} {n : Nat} (h : n ∈ l) : n ≤ l.foldr max 0 := by
  induction l with
  | nil => cases h
  | cons m l ih =>
    show n ≤ max m (l.foldr max 0)
    rcases List.mem_cons.mp h with rfl | h
    · exact Nat.le_max_left _ _
    · exact Nat.le_trans (ih h) (Nat.le_max_right _ _)

theorem le_highest (hp : p ∈ shown) (hpub : p.Published B) :
    p.revision.toNat ≤ highest B shown :=
  le_foldr_max (List.mem_map.mpr ⟨p, List.mem_filter.mpr ⟨hp, decide_eq_true hpub⟩, rfl⟩)

theorem Fits.cons (h : Fits B shown st)
    (hhead : p.Published B → st.Published B → p.revision < st.revision ∨ p = st) :
    Fits B (p :: shown) st := by
  intro hst q hq hpub
  rcases List.mem_cons.mp hq with rfl | hq
  · exact hhead hpub hst
  · exact h hst q hq hpub

/-- What fits follows everything shown. -/
theorem Fits.follows (h : Fits B shown st) (hp : p ∈ shown) : Follows B st p := by
  intro hpub hst
  rcases h hst p hp hpub with hlt | rfl
  · refine ⟨UInt32.le_of_lt hlt, fun heq => ?_⟩
    rw [heq] at hlt
    exact absurd hlt (UInt32.lt_irrefl _)
  · exact ⟨UInt32.le_refl _, fun _ => rfl⟩

theorem Follows.lt_or_eq (h : Follows B st p) (hpub : p.Published B) (hst : st.Published B) :
    p.revision < st.revision ∨ p = st := by
  obtain ⟨hle, heq⟩ := h hpub hst
  by_cases hrev : p.revision = st.revision
  · exact Or.inr (heq hrev)
  · exact Or.inl (UInt32.lt_of_le_of_ne hle hrev)

theorem young_minted (id : BridgeId) : (minted id).Young :=
  ⟨UInt32.le_refl _, fun _ => rfl⟩

/-- A young report follows the mint of its identity. -/
theorem Young.after_minted {id : BridgeId} (h : st.Young) (hm : (minted id).Published B)
    (hst : st.Published B) : (minted id).revision < st.revision ∨ minted id = st := by
  by_cases hrev : st.revision = revisionInitial
  · right
    rw [h.2 hrev, hst.1]
    exact congrArg minted hm.1
  · exact Or.inl (UInt32.lt_of_le_of_ne h.1 (Ne.symm hrev))

/-- Minting `B` fits while nothing but its mint has been published. -/
theorem fits_minted {id : BridgeId} (hyoung : ∀ p ∈ shown, p.Young)
    (h : id = B → highest B shown ≤ 1) : Fits B shown (minted id) := by
  intro hm p hp hpub
  have hle := Nat.le_trans (le_highest hp hpub) (h hm.1)
  have hge : (1 : UInt32).toNat ≤ p.revision.toNat := UInt32.le_iff_toNat_le.mp (hyoung p hp).1
  have hone : (1 : UInt32).toNat = 1 := rfl
  have hrev : p.revision = revisionInitial :=
    UInt32.toNat_inj.mp (show p.revision.toNat = (1 : UInt32).toNat by omega)
  right
  rw [(hyoung p hp).2 hrev, hpub.1, ← hm.1]
  rfl

end Status

open Status

namespace CommandStore

/-- The report of a store. -/
def status (s : CommandStore) : Status :=
  ⟨s.bridgeId, s.nextCommandId, s.revision, s.restoreState != 0, s.commands⟩

variable {s next t : CommandStore} {payload : Option Nat} {r : Records UInt32} {i n : Nat}

/-- Equal registries are reported alike. -/
theorem status_congr (h : s.registry = t.registry) : s.status = t.status := by
  have h1 : s.bridgeId = t.bridgeId := congrArg Registry.bridgeId h
  have h2 : s.nextCommandId = t.nextCommandId := congrArg Registry.nextCommandId h
  have h3 : s.revision = t.revision := congrArg Registry.revision h
  have h4 : (s.restoreState != 0) = (t.restoreState != 0) := congrArg Registry.restoreIncomplete h
  have h5 : s.slots = t.slots := congrArg Registry.slots h
  unfold status commands
  rw [h1, h2, h3, h4, h5]

theorem published_iff {B : BridgeId} :
    s.status.Published B ↔ s.bridgeId = B ∧ s.restoreState = 0 := by
  have hiff : (s.restoreState != 0) = false ↔ s.restoreState = 0 := by simp
  exact and_congr_right' hiff

theorem status_mint (cfg : Config) (random : Option BridgeId) :
    ((configure cfg).mintIdentity random).status = minted (random.getD BridgeId.zero) := by
  have hnil : ((configure cfg).mintIdentity random).commands = [] :=
    SlotTable.content_replicate cfg.maxCommands.toNat
  unfold status
  rw [hnil]
  rfl

theorem status_resetStore (s : CommandStore) (random : Option BridgeId) :
    (s.resetStore random).status = minted (random.getD BridgeId.zero) := by
  have hnil : (s.resetStore random).commands = [] :=
    SlotTable.content_replicate s.config.maxCommands.toNat
  unfold status
  rw [hnil]
  rfl

/-- What a change makes is no longer young. -/
theorem Change.young (h : Change s payload next) (hs : s.Sound) : next.status.Young := by
  have hlt : s.revision.toNat < next.revision.toNat := UInt32.lt_iff_toNat_lt.mp (h.revision_lt hs)
  have hpos : (1 : UInt32).toNat ≤ s.revision.toNat := UInt32.le_iff_toNat_le.mp hs.revision_pos
  refine ⟨UInt32.le_iff_toNat_le.mpr ?_, fun heq => ?_⟩
  · show (1 : UInt32).toNat ≤ next.revision.toNat
    omega
  · have heq' : next.revision.toNat = (1 : UInt32).toNat := congrArg UInt32.toNat heq
    omega

/-- A change that leaves the store speaking for `B` with no restore open either found it so or
    closed a restore of `B`. -/
theorem Change.published {B : BridgeId} (h : Change s payload next) (hn : next.status.Published B) :
    s.bridgeId = B := by
  rw [published_iff] at hn
  cases h with
  | adopt => cases hn.2
  | store => exact hn.1
  | relearn => exact hn.1
  | rename => exact hn.1
  | erase => exact hn.1
  | clear => exact hn.1
  | commit => exact hn.1

/-! ## What the flash holds -/

/-- The header, the index and the waveforms of `t` are on flash. -/
structure Holds (r : Records UInt32) (t : CommandStore) : Prop where
  header : r t.config.headerKey = some (headerRecord t.config)
  index : r t.config.indexKey = some t.indexRecord
  coherent : Coherent t r

theorem Holds.restores (h : Holds r t) (ht : t.Sound) (hpos : t.config.maxCommands ≠ 0) :
    Restores t.config r t.registry :=
  Restores.of_image ht
    { header := ⟨_, Records.load_eq_some.mpr ⟨h.header, length_headerRecord _⟩,
        headerStates_headerRecord _ hpos⟩
      index := h.index
      payloads := fun i _ hocc => h.coherent i hocc }

theorem Holds.save_payload (h : Holds r t) (ht : t.Sound) (hi : i < t.slots.length)
    {timings : List Int32}
    (hsame : (t.slot i).occupied = true → (t.slot i).timings = timings) :
    Holds (r.save (t.config.payloadKey (UInt8.ofNat i)) (timingsBytes timings)) t where
  header := (Records.save_of_ne (t.config.payloadKey_ne_headerKey _).symm _ _).trans h.header
  index := (Records.save_of_ne (t.config.payloadKey_ne_indexKey _).symm _ _).trans h.index
  coherent := h.coherent.save_payload ht hi hsame

theorem Holds.of_apply (h : Coherent t r) : Holds (r.apply t.indexRecords) t :=
  ⟨apply_indexRecords_header, apply_indexRecords_index, h.apply_indexRecords rfl⟩

theorem apply_indexRecord :
    r.apply (t.indexRecords.take 1) = r.save t.config.indexKey t.indexRecord := rfl

/-- Once the header is there, the index alone completes a write. -/
theorem Holds.of_save_index (h : Coherent t r)
    (hheader : r t.config.headerKey = some (headerRecord t.config)) :
    Holds (r.save t.config.indexKey t.indexRecord) t where
  header := (Records.save_of_ne t.config.headerKey_ne_indexKey _ _).trans hheader
  index := Records.save_self _ _ _
  coherent := h.of_failed_index rfl 1

/-- Where a failed write can stop: before its first save, after the payload, or after the index.
    The header is its last save. -/
theorem failed_write (hpay : Coherent next (r.apply (payload.map next.payloadRecord).toList))
    (hn : n < (next.records payload).length) :
    let r' := r.apply ((next.records payload).take n)
    r' next.config.headerKey = r next.config.headerKey ∧
    (n = 0 ∧ r' = r ∨
      (n = 1 ∧ ∃ i, payload = some i ∧
        r' = r.save (next.config.payloadKey (UInt8.ofNat i)) (timingsBytes (next.slot i).timings)) ∨
      (r next.config.headerKey = some (headerRecord next.config) → Holds r' next)) := by
  intro r'
  cases payload with
  | none =>
    have hrecords : next.records none = next.indexRecords := records_none next
    have hn' : n < 2 := by
      rw [hrecords] at hn
      exact hn
    rcases n with _ | n
    · exact ⟨rfl, Or.inl ⟨rfl, rfl⟩⟩
    · obtain rfl : n = 0 := by omega
      have hr' : r' = r.save next.config.indexKey next.indexRecord := by
        show r.apply ((next.records none).take 1) = _
        rw [hrecords]
        rfl
      rw [hr']
      exact ⟨Records.save_of_ne next.config.headerKey_ne_indexKey _ _,
        Or.inr (Or.inr (Holds.of_save_index hpay))⟩
  | some i =>
    have hrecords : next.records (some i) = next.payloadRecord i :: next.indexRecords :=
      records_some next i
    have hn' : n < 3 := by
      rw [hrecords] at hn
      exact hn
    rcases n with _ | _ | n
    · exact ⟨rfl, Or.inl ⟨rfl, rfl⟩⟩
    · have hr' : r' = r.save (next.config.payloadKey (UInt8.ofNat i))
          (timingsBytes (next.slot i).timings) := by
        show r.apply ((next.records (some i)).take 1) = _
        rw [hrecords]
        rfl
      rw [hr']
      exact ⟨Records.save_of_ne (next.config.payloadKey_ne_headerKey _).symm _ _,
        Or.inr (Or.inl ⟨rfl, i, rfl, rfl⟩)⟩
    · obtain rfl : n = 0 := by omega
      have hpayload : r.apply ((some i).map next.payloadRecord).toList
          = r.save (next.config.payloadKey (UInt8.ofNat i)) (timingsBytes (next.slot i).timings) :=
        rfl
      rw [hpayload] at hpay
      have hr' : r' = (r.save (next.config.payloadKey (UInt8.ofNat i))
          (timingsBytes (next.slot i).timings)).save next.config.indexKey next.indexRecord := by
        show r.apply ((next.records (some i)).take 2) = _
        rw [hrecords]
        rfl
      have hheader : r.save (next.config.payloadKey (UInt8.ofNat i))
          (timingsBytes (next.slot i).timings) next.config.headerKey = r next.config.headerKey :=
        Records.save_of_ne (next.config.payloadKey_ne_headerKey _).symm _ _
      rw [hr']
      refine ⟨(Records.save_of_ne next.config.headerKey_ne_indexKey _ _).trans hheader,
        Or.inr (Or.inr fun h => Holds.of_save_index hpay (hheader.trans h))⟩

end CommandStore

/-! ## Lives -/

/-- The current device of a logical bridge, which of its saves land, and everything that has been
    reported so far, the latest report first. -/
structure Life where
  device : Session
  lands : Nat → Bool
  shown : List Status

/-- What can happen next.  Replacement hardware has its own configuration, flash and identity. -/
inductive LifeEvent where
  | op (op : Op)
  | reboot (random : Option BridgeId)
  | replace (config : Config) (lands : Nat → Bool) (random : Option BridgeId)

namespace Life

/-- The device is now in state `x`, and reports it. -/
def report (shown : List Status) (lands : Nat → Bool) (x : Session) : Life :=
  ⟨x, lands, x.store.status :: shown⟩

/-- The first device is powered on. -/
def start (config : Config) (lands : Nat → Bool) (random : Option BridgeId) : Life :=
  report [] lands (Session.powerOn lands config random)

def step (ℓ : Life) : LifeEvent → Life
  | .op op => report ℓ.shown ℓ.lands (Session.step ℓ.lands ℓ.device (.op op))
  | .reboot random =>
    report ℓ.shown ℓ.lands
      (Session.step ℓ.lands ℓ.device (.reboot ℓ.device.store.config random))
  | .replace config lands random => report ℓ.shown lands (Session.powerOn lands config random)

def run (ℓ : Life) (events : List LifeEvent) : Life := events.foldl step ℓ

/-- The device speaks for `B`, and has a restore open. -/
def Restoring (B : BridgeId) (ℓ : Life) : Prop :=
  ℓ.device.store.bridgeId = B ∧ ℓ.device.store.restoreState ≠ 0

/-- The operation saves its waveform and then fails to save the index, over another waveform that
    the index on flash still describes. -/
def Smears (ℓ : Life) (op : Op) : Prop :=
  let held := reboot ℓ.device.store.config none ℓ.device.flash.records
  ∃ i next undone, op.plan ℓ.device.store = .write (some i) next undone ∧
    ℓ.lands ℓ.device.flash.attempts = true ∧ ℓ.lands (ℓ.device.flash.attempts + 1) = false ∧
    (held.slot i).occupied = true ∧ (held.slot i).timings ≠ (next.slot i).timings

/-- The operation does not start a lower sequence for `B`: what closes a restore of `B` has a
    revision to go on from that is not below anything published, and `B` is not minted again. -/
def Continues (B : BridgeId) (ℓ : Life) : Op → Prop
  | .clearAll => ℓ.Restoring B → highest B ℓ.shown ≤ ℓ.device.store.revision.toNat
  | .restoreCommit source =>
    ℓ.Restoring B → highest B ℓ.shown ≤ max source.toNat ℓ.device.store.revision.toNat
  | .factoryReset random => random.getD BridgeId.zero = B → highest B ℓ.shown ≤ 1
  | _ => True

/-- Only an operation that stores a waveform can smear one. -/
theorem Smears.stores {ℓ : Life} {op : Op} (h : ℓ.Smears op) :
    (∃ c, op = .put c) ∨ ∃ c, op = .importCommand c := by
  obtain ⟨i, next, undone, hplan, -⟩ := h
  exact op_saves_waveform hplan

/-- The condition on a step. -/
def Steady (B : BridgeId) (ℓ : Life) : LifeEvent → Prop
  | .op op => ¬ Session.Tears ℓ.lands ℓ.device (.op op) ∧ ¬ ℓ.Smears op ∧ ℓ.Continues B op
  | .reboot random =>
    ℓ.device.flash.records ℓ.device.store.config.headerKey = none →
      random.getD BridgeId.zero = B → highest B ℓ.shown ≤ 1
  | .replace _ _ random => random.getD BridgeId.zero = B → highest B ℓ.shown ≤ 1

/-- Every step of the run meets the condition. -/
def SteadyRun (B : BridgeId) (ℓ : Life) : List LifeEvent → Prop
  | [] => True
  | e :: events => ℓ.Steady B e ∧ SteadyRun B (ℓ.step e) events

end Life

/-- A device has at least one slot. -/
def LifeEvent.Configured : LifeEvent → Prop
  | .replace config _ _ => config.maxCommands ≠ 0
  | _ => True

/-! ## The invariant -/

/-- What a reboot would bring back can be added to the reports. -/
def Session.Remembers (B : BridgeId) (shown : List Status) (x : Session) : Prop :=
  x.flash.records x.store.config.headerKey = none ∨
    ∃ t, Holds x.flash.records t ∧ t.config = x.store.config ∧ t.Sound ∧ t.status.Young ∧
      Fits B shown t.status

/-- The invariant of a life. -/
structure Lineage (B : BridgeId) (ℓ : Life) : Prop where
  kept : Session.Kept (fun cfg => cfg.maxCommands ≠ 0) Sound ℓ.device
  writable : ℓ.device.store.readOnly = false
  coherent : Coherent ℓ.device.store ℓ.device.flash.records
  head : ∃ rest, ℓ.shown = ℓ.device.store.status :: rest
  young : ∀ st ∈ ℓ.shown, st.Young
  ordered : ℓ.shown.Pairwise (Follows B)
  flash : ℓ.device.Remembers B ℓ.shown

namespace Lineage

variable {B : BridgeId} {ℓ : Life}

theorem sound (h : Lineage B ℓ) : ℓ.device.store.Sound := h.kept.ram h.writable

theorem mem_shown (h : Lineage B ℓ) : ℓ.device.store.status ∈ ℓ.shown := by
  obtain ⟨rest, hshown⟩ := h.head
  rw [hshown]
  exact List.mem_cons_self

/-- The latest report is above all others. -/
theorem fits_self (h : Lineage B ℓ) : Fits B ℓ.shown ℓ.device.store.status := by
  obtain ⟨rest, hshown⟩ := h.head
  have hordered := h.ordered
  rw [hshown] at hordered ⊢
  intro hst p hp hpub
  rcases List.mem_cons.mp hp with rfl | hp
  · exact Or.inr rfl
  · exact ((List.pairwise_cons.mp hordered).1 p hp).lt_or_eq hpub hst

/-- While the device speaks for `B` with no restore open, it is at the highest revision. -/
theorem highest_le (h : Lineage B ℓ) (hst : ℓ.device.store.status.Published B) :
    ∀ p ∈ ℓ.shown, p.Published B → p.revision ≤ ℓ.device.store.revision := by
  intro p hp hpub
  rcases h.fits_self hst p hp hpub with hlt | rfl
  · exact UInt32.le_of_lt hlt
  · exact UInt32.le_refl _

/-- A new report that fits keeps the invariant. -/
theorem report {lands : Nat → Bool} {x : Session} {shown : List Status}
    (hyoungs : ∀ st ∈ shown, st.Young) (hordered : shown.Pairwise (Follows B))
    (hkept : Session.Kept (fun cfg => cfg.maxCommands ≠ 0) Sound x)
    (hwritable : x.store.readOnly = false) (hcoh : Coherent x.store x.flash.records)
    (hyoung : x.store.status.Young) (hfits : Fits B shown x.store.status)
    (hflash : x.Remembers B (x.store.status :: shown)) : Lineage B (Life.report shown lands x) where
  kept := hkept
  writable := hwritable
  coherent := hcoh
  head := ⟨shown, rfl⟩
  young := by
    intro st hst
    rcases List.mem_cons.mp hst with rfl | hst
    · exact hyoung
    · exact hyoungs st hst
  ordered := List.pairwise_cons.mpr ⟨fun p hp => hfits.follows hp, hordered⟩
  flash := hflash

/-! ## Fresh hardware -/

/-- Powering on a device, or rebooting one whose header was never written, mints an identity. -/
theorem boot_fresh {cfg : Config} {lands : Nat → Bool} {flash : Fake UInt32}
    {random : Option BridgeId} {shown : List Status} (hyoungs : ∀ st ∈ shown, st.Young)
    (hordered : shown.Pairwise (Follows B)) (hpos : cfg.maxCommands ≠ 0)
    (hstored : Stored Sound cfg flash.records) (hheader : flash.records cfg.headerKey = none)
    (hmint : random.getD BridgeId.zero = B → highest B shown ≤ 1) :
    Lineage B (Life.report shown lands (Session.boot lands cfg random flash)) := by
  have hP := preserved_sound fun cfg => cfg.maxCommands ≠ 0
  obtain ⟨hstore, n, hwritten⟩ := Session.boot_fresh lands hheader random
  have hstatus : (Session.boot lands cfg random flash).store.status
      = minted (random.getD BridgeId.zero) := by
    rw [hstore]
    exact status_mint cfg random
  have hwritable : (Session.boot lands cfg random flash).store.readOnly = false := by
    rw [hstore]
    rfl
  have hfits : Fits B shown (minted (random.getD BridgeId.zero)) := fits_minted hyoungs hmint
  refine report hyoungs hordered (Session.Kept.boot hP hpos hstored random) hwritable
    (Session.coherent_boot lands hP hstored random hwritable) ?_ ?_ ?_
  · rw [hstatus]
    exact young_minted _
  · rw [hstatus]
    exact hfits
  · unfold Session.Remembers
    rw [hstatus, hwritten, hstore]
    rcases n with _ | _ | n
    · left
      rw [List.take_zero, Records.apply_nil]
      exact hheader
    · left
      have hkey : cfg.headerKey ≠ cfg.indexKey := cfg.headerKey_ne_indexKey
      rw [apply_indexRecord]
      show flash.records.save cfg.indexKey _ cfg.headerKey = none
      rw [Records.save_of_ne hkey]
      exact hheader
    · right
      rw [List.take_of_length_le (Nat.le_add_left 2 n)]
      refine ⟨(configure cfg).mintIdentity random, Holds.of_apply (Coherent.of_empty rfl), rfl,
        mint_sound cfg random, ?_, ?_⟩
      · rw [status_mint]
        exact young_minted _
      · rw [status_mint]
        exact hfits.cons fun _ _ => Or.inr rfl

/-! ## Operations -/

/-- What closes a restore of `B` goes on above everything published. -/
theorem closes {op : Op} {payload : Option Nat} {next undone : CommandStore}
    (hplan : op.plan ℓ.device.store = .write payload next undone) (hcont : ℓ.Continues B op)
    (hreset : ∀ random, op ≠ .factoryReset random) (hopen : ℓ.Restoring B)
    (hclosed : next.restoreState = 0) : highest B ℓ.shown < next.revision.toNat := by
  obtain ⟨-, hopen'⟩ := id hopen
  cases op with
  | put c => exact absurd (writable_eq_ok (putPlan_eq_write hplan).1).2.2 hopen'
  | rename id name => exact absurd (writable_eq_ok (renamePlan_eq_write hplan).1).2.2 hopen'
  | remove name =>
    obtain ⟨slot, -, hplan'⟩ := removePlan_eq_write hplan
    exact absurd (writable_eq_ok (removeByIdPlan_eq_write hplan').1).2.2 hopen'
  | removeById id => exact absurd (writable_eq_ok (removeByIdPlan_eq_write hplan).1).2.2 hopen'
  | clearAll =>
    -- abandoning goes on from the local revision alone
    obtain ⟨-, -, rev, hrev, -, rfl, -⟩ := clearAllPlan_eq_write hplan
    have hle : highest B ℓ.shown ≤ ℓ.device.store.revision.toNat := hcont hopen
    have hsucc := (nextRevision_eq_some hrev).1
    show highest B ℓ.shown < rev.toNat
    omega
  | factoryReset random => exact absurd rfl (hreset random)
  | restoreBegin b id =>
    obtain ⟨-, -, -, -, rev, -, -, rfl, -⟩ := restoreBeginPlan_eq_write hplan
    cases hclosed
  | importCommand c =>
    obtain ⟨-, -, -, -, -, -, -, slot, rev, -, -, -, -, rfl, -⟩ := importCommandPlan_eq_write hplan
    exact absurd hclosed hopen'
  | restoreCommit source =>
    -- committing goes on from the higher of the two
    obtain ⟨-, -, -, rev, hrev, -, rfl, -⟩ := restoreCommitPlan_eq_write hplan
    have hle : highest B ℓ.shown ≤ max source.toNat ℓ.device.store.revision.toNat := hcont hopen
    have hsucc := (nextRevision_eq_some hrev).1
    rw [toNat_newer] at hsucc
    show highest B ℓ.shown < rev.toNat
    omega

/-- **What a steady operation writes can be added to the reports.** -/
theorem fits_next (h : Lineage B ℓ) {op : Op} {payload : Option Nat} {next undone : CommandStore}
    (hplan : op.plan ℓ.device.store = .write payload next undone) (hcont : ℓ.Continues B op) :
    next.status.Young ∧ Fits B ℓ.shown next.status := by
  rcases op_change (fun _ => h.sound) hplan with
    ⟨-, hchange, -⟩ | ⟨random, rfl, -, rfl, -⟩
  · refine ⟨hchange.young h.sound, ?_⟩
    have hlt := hchange.revision_lt h.sound
    -- a change moves the revision up, and a factory reset starts over at 1
    have hreset : ∀ random, op ≠ .factoryReset random := by
      rintro random rfl
      obtain ⟨-, -, hnext, -⟩ := factoryResetPlan_eq_write hplan
      have hpos := UInt32.lt_iff_toNat_lt.mp hlt
      have hone : next.revision = 1 := by rw [hnext]; rfl
      have hge : (1 : UInt32).toNat ≤ ℓ.device.store.revision.toNat :=
        UInt32.le_iff_toNat_le.mp h.sound.revision_pos
      rw [hone] at hpos
      omega
    intro hnext p hp hpub
    left
    have hid := hchange.published hnext
    by_cases hopen : ℓ.device.store.restoreState = 0
    · exact UInt32.lt_of_le_of_lt
        (h.highest_le (published_iff.mpr ⟨hid, hopen⟩) p hp hpub) hlt
    · have hbelow := closes hplan hcont hreset ⟨hid, hopen⟩ (published_iff.mp hnext).2
      have hle := le_highest hp hpub
      exact UInt32.lt_iff_toNat_lt.mpr (show p.revision.toNat < next.revision.toNat by omega)
  · have hstatus : (ℓ.device.store.resetStore random).resume.status
        = minted (random.getD BridgeId.zero) := status_resetStore ℓ.device.store random
    rw [hstatus]
    exact ⟨young_minted _, fits_minted h.young hcont⟩

/-- The payload that is written belongs to the store that is written. -/
theorem coherent_next (h : Lineage B ℓ) {op : Op} {payload : Option Nat}
    {next undone : CommandStore} (hplan : op.plan ℓ.device.store = .write payload next undone) :
    Coherent next
      (ℓ.device.flash.records.apply (payload.map next.payloadRecord).toList) := by
  have hsound := (op_next (fun _ => h.sound) hplan).1
  rcases op_change (fun _ => h.sound) hplan with ⟨-, hchange, -⟩ | ⟨random, -, -, rfl, -⟩
  · exact hchange.coherent hsound h.coherent
  · exact Coherent.of_empty rfl

/-- A failed write leaves the flash holding what it held, or what was to be written. -/
theorem remembers_failed (h : Lineage B ℓ) {op : Op} {payload : Option Nat}
    {next undone : CommandStore} (hplan : op.plan ℓ.device.store = .write payload next undone)
    (hcont : ℓ.Continues B op) (hsmear : ¬ ℓ.Smears op) {n : Nat}
    (hn : n < (next.records payload).length)
    (hbefore : ∀ i < n, ℓ.lands (ℓ.device.flash.attempts + i) = true)
    (hfail : ℓ.lands (ℓ.device.flash.attempts + n) = false) :
    let r' := ℓ.device.flash.records.apply ((next.records payload).take n)
    r' ℓ.device.store.config.headerKey = none ∨
      ∃ t, Holds r' t ∧ t.config = ℓ.device.store.config ∧ t.Sound ∧ t.status.Young ∧
        Fits B ℓ.shown t.status := by
  intro r'
  obtain ⟨hsound, hconfig, -⟩ := op_next (fun _ => h.sound) hplan
  obtain ⟨hyoung, hfits⟩ := h.fits_next hplan hcont
  obtain ⟨hheader, hwhere⟩ := failed_write (h.coherent_next hplan) hn
  rw [hconfig] at hheader hwhere
  rcases h.flash with hnone | ⟨t, hholds, htconfig, ht, hyoung', hfits'⟩
  · exact Or.inl (hheader.trans hnone)
  · right
    rcases hwhere with ⟨-, hsame⟩ | ⟨rfl, i, rfl, hpayload⟩ | hindex
    · exact ⟨t, by rw [show r' = _ from hsame]; exact hholds, htconfig, ht, hyoung', hfits'⟩
    · -- the waveform landed: the index on flash must not describe another one there
      have hi : i < t.slots.length := by
        have hlen : i < next.slots.length := by
          rcases op_change (fun _ => h.sound) hplan with ⟨-, hchange, -⟩ | ⟨random, -, hpay, -, -⟩
          · exact hchange.payload_lt rfl
          · cases hpay
        rw [hsound.sized, hconfig] at hlen
        rw [ht.sized, htconfig]
        exact hlen
      have hsame : (t.slot i).occupied = true → (t.slot i).timings = (next.slot i).timings := by
        intro hocc
        by_contra hdiff
        have hrestores := hholds.restores ht (htconfig ▸ h.kept.allowed)
        rw [htconfig] at hrestores
        have hslots : (reboot ℓ.device.store.config none ℓ.device.flash.records).slots = t.slots :=
          congrArg Registry.slots (hrestores none).2
        have hslot : (reboot ℓ.device.store.config none ℓ.device.flash.records).slot i = t.slot i := by
          unfold slot
          rw [hslots]
        refine hsmear ⟨i, next, undone, hplan, hbefore 0 Nat.one_pos, hfail, ?_, ?_⟩
        · rw [hslot]
          exact hocc
        · rw [hslot]
          exact hdiff
      have hkeep := hholds.save_payload ht hi hsame
      rw [htconfig] at hkeep
      exact ⟨t, by rw [show r' = _ from hpayload]; exact hkeep, htconfig, ht, hyoung', hfits'⟩
    · -- the index landed over a header that describes it
      have hthere := hholds.header
      rw [htconfig] at hthere
      exact ⟨next, hindex hthere, hconfig, hsound, hyoung, hfits⟩

/-- Reporting what has been reported already. -/
theorem fits_again {st t : Status} {shown : List Status} (h : Fits B shown t) (hst : st ∈ shown) :
    Fits B (st :: shown) t :=
  h.cons fun hpub ht => h ht st hst hpub

/-- The report of an operation that leaves the payloads of the index alone. -/
theorem report_op (h : Lineage B ℓ) {op : Op} {st : Status} (htears : ¬ ℓ.device.Tears ℓ.lands (.op op))
    (hwritable : (Session.step ℓ.lands ℓ.device (.op op)).store.readOnly = false)
    (hstatus : (Session.step ℓ.lands ℓ.device (.op op)).store.status = st) (hyoung : st.Young)
    (hfits : Fits B ℓ.shown st)
    (hflash : (Session.step ℓ.lands ℓ.device (.op op)).Remembers B (st :: ℓ.shown)) :
    Lineage B (ℓ.step (.op op)) := by
  have hP := preserved_sound fun cfg => cfg.maxCommands ≠ 0
  have hcoh := Session.coherent_step hP h.kept h.kept.allowed (fun _ => h.coherent)
    (by rintro cfg random ⟨⟩) htears
  subst hstatus
  exact report h.young h.ordered (h.kept.op hP op) hwritable (hcoh hwritable) hyoung hfits hflash

/-- An operation that changes nothing in RAM reports what was reported before. -/
theorem op_same (h : Lineage B ℓ) {op : Op} (htears : ¬ ℓ.device.Tears ℓ.lands (.op op))
    (hflash : Session.Remembers B ℓ.shown (Session.step ℓ.lands ℓ.device (.op op)))
    (hstore : (Session.step ℓ.lands ℓ.device (.op op)).store = ℓ.device.store) :
    Lineage B (ℓ.step (.op op)) := by
  refine h.report_op htears (hstore ▸ h.writable) (congrArg status hstore) (h.young _ h.mem_shown)
    h.fits_self ?_
  rcases hflash with hnone | ⟨t, hholds, hconfig, ht, hyoung, hfits⟩
  · exact Or.inl hnone
  · exact Or.inr ⟨t, hholds, hconfig, ht, hyoung, fits_again hfits h.mem_shown⟩

/-- An operation whose saves all land is remembered by what it wrote. -/
theorem op_landed (h : Lineage B ℓ) {op : Op} {payload : Option Nat} {next undone : CommandStore}
    (htears : ¬ ℓ.device.Tears ℓ.lands (.op op)) (hcont : ℓ.Continues B op)
    (hplan : op.plan ℓ.device.store = .write payload next undone)
    (hstore : (Session.step ℓ.lands ℓ.device (.op op)).store = next)
    (hrec : (Session.step ℓ.lands ℓ.device (.op op)).flash.records
      = ℓ.device.flash.records.apply (next.records payload)) : Lineage B (ℓ.step (.op op)) := by
  obtain ⟨hsound, -, -⟩ := op_next (fun _ => h.sound) hplan
  obtain ⟨hyoung, hfits⟩ := h.fits_next hplan hcont
  have hwritable : next.readOnly = false := by
    rcases op_change (fun _ => h.sound) hplan with ⟨hro, hchange, -⟩ | ⟨random, -, -, rfl, -⟩
    · exact hchange.readOnly.trans hro
    · rfl
  refine h.report_op htears (hstore ▸ hwritable) (congrArg status hstore) hyoung hfits ?_
  right
  refine ⟨next, ?_, by rw [hstore], hsound, hyoung, hfits.cons fun _ _ => Or.inr rfl⟩
  rw [hrec, CommandStore.records, Records.apply_append]
  exact Holds.of_apply (h.coherent_next hplan)

/-- A factory reset that fails leaves the new identity in RAM and the old registry on flash. -/
theorem op_failed_reset (h : Lineage B ℓ) {random : Option BridgeId}
    (htears : ¬ ℓ.device.Tears ℓ.lands (.op (.factoryReset random)))
    (hcont : ℓ.Continues B (.factoryReset random))
    (hflash : Session.Remembers B ℓ.shown (Session.step ℓ.lands ℓ.device (.op (.factoryReset random))))
    (hstore : (Session.step ℓ.lands ℓ.device (.op (.factoryReset random))).store
      = ℓ.device.store.resetStore random) : Lineage B (ℓ.step (.op (.factoryReset random))) := by
  have hstatus : (Session.step ℓ.lands ℓ.device (.op (.factoryReset random))).store.status
      = minted (random.getD BridgeId.zero) := by
    rw [hstore]
    exact status_resetStore ℓ.device.store random
  have hwritable :
      (Session.step ℓ.lands ℓ.device (.op (.factoryReset random))).store.readOnly = false := by
    rw [hstore]
    exact h.writable
  refine h.report_op htears hwritable hstatus (young_minted _) (fits_minted h.young hcont) ?_
  rcases hflash with hnone | ⟨t, hholds, hconfig, ht, hyoung, hfits⟩
  · exact Or.inl hnone
  · exact Or.inr ⟨t, hholds, hconfig, ht, hyoung, hfits.cons hyoung.after_minted⟩

/-- **One operation.** -/
theorem op (h : Lineage B ℓ) {op : Op} (hsteady : ℓ.Steady B (.op op)) :
    Lineage B (ℓ.step (.op op)) := by
  obtain ⟨htears, hsmear, hcont⟩ := hsteady
  cases hplan : op.plan ℓ.device.store with
  | stop result =>
    have hstep : Session.step ℓ.lands ℓ.device (.op op) = ℓ.device :=
      Session.step_of_stop ℓ.lands hplan
    refine h.op_same htears ?_ (by rw [hstep])
    rw [hstep]
    exact h.flash
  | write payload next undone =>
    rcases Session.step_cases ℓ.lands hplan with
      ⟨-, hstore, hrec⟩ | ⟨-, hstore, n, hn, hrec, hbefore, hfail⟩
    · exact h.op_landed htears hcont hplan hstore hrec
    · -- some save failed
      have hflash := h.remembers_failed hplan hcont hsmear hn hbefore hfail
      rw [← hrec] at hflash
      rcases op_change (fun _ => h.sound) hplan with ⟨-, -, rfl⟩ | ⟨random, rfl, -, -, rfl⟩
      · refine h.op_same htears ?_ hstore
        unfold Session.Remembers
        rw [hstore]
        exact hflash
      · refine h.op_failed_reset htears hcont ?_ hstore
        unfold Session.Remembers
        rw [hstore]
        exact hflash

/-- **One reboot.** -/
theorem reboot (h : Lineage B ℓ) {random : Option BridgeId} (hsteady : ℓ.Steady B (.reboot random)) :
    Lineage B (ℓ.step (.reboot random)) := by
  have hP := preserved_sound fun cfg => cfg.maxCommands ≠ 0
  by_cases hheader : ℓ.device.flash.records ℓ.device.store.config.headerKey = none
  · exact boot_fresh h.young h.ordered h.kept.allowed h.kept.flash hheader (hsteady hheader)
  · obtain ⟨t, hholds, htconfig, ht, hyoung, hfits⟩ := h.flash.resolve_left hheader
    obtain ⟨hconfig, -, hsame, -⟩ := Session.boot_stored ℓ.lands hP.sound h.kept.flash hheader random
    have hrestores := hholds.restores ht (htconfig ▸ h.kept.allowed)
    rw [htconfig] at hrestores
    have hstore := Session.store_boot ℓ.lands ℓ.device.store.config random ℓ.device.flash
    obtain ⟨hwritable, hregistry⟩ := hrestores random
    rw [← hstore] at hwritable hregistry
    have hstatus := status_congr hregistry
    show Lineage B (Life.report ℓ.shown ℓ.lands
      (Session.boot ℓ.lands ℓ.device.store.config random ℓ.device.flash))
    refine report h.young h.ordered (Session.Kept.boot hP h.kept.allowed h.kept.flash random)
      hwritable (Session.coherent_boot ℓ.lands hP h.kept.flash random hwritable) ?_ ?_ ?_
    · rw [hstatus]
      exact hyoung
    · rw [hstatus]
      exact hfits
    · right
      rw [hstatus, hsame, hconfig]
      exact ⟨t, hholds, htconfig, ht, hyoung, hfits.cons fun _ _ => Or.inr rfl⟩

/-- **Every steady run keeps the invariant.** -/
theorem run (h : Lineage B ℓ) {events : List LifeEvent} (hconfigured : ∀ e ∈ events, e.Configured)
    (hsteady : ℓ.SteadyRun B events) : Lineage B (ℓ.run events) := by
  induction events generalizing ℓ with
  | nil => exact h
  | cons e events ih =>
    obtain ⟨hstep, hrest⟩ := hsteady
    refine ih ?_ (fun e' he' => hconfigured e' (List.mem_cons_of_mem _ he')) hrest
    cases e with
    | op op => exact h.op hstep
    | reboot random => exact h.reboot hstep
    | replace config lands random =>
      have hpos : config.maxCommands ≠ 0 := hconfigured _ List.mem_cons_self
      exact boot_fresh h.young h.ordered hpos (Or.inl rfl) rfl hstep

/-- The first device. -/
theorem start {config : Config} (hpos : config.maxCommands ≠ 0) (lands : Nat → Bool)
    (random : Option BridgeId) : Lineage B (Life.start config lands random) :=
  boot_fresh (fun _ h => nomatch h) List.Pairwise.nil hpos (Or.inl rfl) rfl fun _ => Nat.zero_le 1

end Lineage

namespace Life

/-- **The revision never repeats for one bridge**, in every run whose steps are all steady: of any
    two reports under identity `B` with no restore open the later one has no smaller revision, and
    the same revision only if it reports the same registry. -/
theorem revision_never_repeats (B : BridgeId) {config : Config} (hpos : config.maxCommands ≠ 0)
    (lands : Nat → Bool) (random : Option BridgeId) {events : List LifeEvent}
    (hconfigured : ∀ e ∈ events, e.Configured)
    (hsteady : (start config lands random).SteadyRun B events) :
    ((start config lands random).run events).shown.Pairwise (Follows B) :=
  ((Lineage.start hpos lands random).run hconfigured hsteady).ordered

/-- The identity of the sample bridge. -/
def sampleBridge : BridgeId := ⟨List.replicate bridgeIdBytes 1, List.length_replicate⟩

/-- A bridge that has learned and renamed a command, and then its replacement, on which a restore
    is begun and abandoned with `clear_all`. -/
def abandoned : List LifeEvent :=
  [.op (.put { name := ascii "a", timings := [350, -1050] }), .op (.rename 1 (ascii "b")),
    .replace ⟨1, 4, 200, 7⟩ (fun _ => true) none, .op (.restoreBegin sampleBridge 2), .op .clearAll]

/-- The replacement publishes revision 3 of the bridge a second time, for another registry. -/
theorem abandoned_restore_repeats :
    ¬ ((start ⟨1, 4, 200, 7⟩ (fun _ => true) (some sampleBridge)).run abandoned).shown.Pairwise
      (Follows sampleBridge) := by
  decide +kernel

/-- A replacement that is restored and committed above what was published. -/
theorem restored_replacement_follows :
    ((start ⟨1, 4, 200, 7⟩ (fun _ => true) (some sampleBridge)).run
      [.replace ⟨1, 4, 200, 7⟩ (fun _ => true) none, .op (.restoreBegin sampleBridge 2),
        .op (.restoreCommit 1)]).shown.Pairwise (Follows sampleBridge) := by
  refine revision_never_repeats sampleBridge (by decide) (fun _ => true) (some sampleBridge)
    (by simp [LifeEvent.Configured]) ⟨?_, ⟨id, ?_, trivial⟩, ⟨id, ?_, ?_⟩, trivial⟩
  · exact fun h => absurd h (by decide)
  · intro h
    rcases h.stores with ⟨c, ⟨⟩⟩ | ⟨c, ⟨⟩⟩
  · intro h
    rcases h.stores with ⟨c, ⟨⟩⟩ | ⟨c, ⟨⟩⟩
  · intro _
    decide +kernel

end Life

end RfCloner
