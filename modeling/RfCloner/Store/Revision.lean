/-
  The revision as a change token.

  On one device whose saves succeed the flash always holds exactly what is in RAM (`Settled`), so a
  reboot changes nothing at all, and neither does an operation that is refused or has nothing to do.
  Every other operation moves the revision up.  Two moments of a run with the same revision are
  therefore moments between which nothing happened (`Settled.run_eq_or_lt`), however far apart.
-/
import RfCloner.Store.Lineage

namespace RfCloner

open FixedCodec StorageBackend

namespace CommandStore

/-! ## What an operation does to the revision -/

/-- The documented no-ops: a rename to the name the command has, and clearing what is empty with no
    restore open. -/
def NoOp (s : CommandStore) : Op → Prop
  | .rename commandId newName => ∃ c, s.getById commandId = some c ∧ c.name = newName
  | .clearAll => s.count = 0 ∧ s.restoreState = 0
  | _ => False

/-- A no-op that the guards before it let through. -/
def Idle (s : CommandStore) : Op → Prop
  | .rename commandId newName =>
    s.writable = .ok ∧ validateName newName = .ok ∧ s.NoOp (.rename commandId newName)
  | .clearAll => s.backend = true ∧ s.readOnly = false ∧ s.NoOp .clearAll
  | _ => False

/-- The revision an operation goes on from. -/
def baseRevision (s : CommandStore) : Op → UInt32
  | .restoreCommit source => if source > s.revision then source else s.revision
  | _ => s.revision

theorem toNat_baseRevision_restoreCommit (s : CommandStore) (source : UInt32) :
    (s.baseRevision (.restoreCommit source)).toNat = max source.toNat s.revision.toNat :=
  toNat_newer source s.revision

theorem revision_le_baseRevision (s : CommandStore) (op : Op) :
    s.revision.toNat ≤ (s.baseRevision op).toNat := by
  cases op with
  | restoreCommit source =>
    rw [toNat_baseRevision_restoreCommit]
    exact Nat.le_max_right _ _
  | _ => exact Nat.le_refl _

section Plans

variable {s next undone : CommandStore} {payload : Option Nat} {op : Op}

/-- A guard that fails is reported, so a plan that stops with `ok` has passed it. -/
theorem passed_of_stop_ok {c : Prop} [Decidable c] {refused : StoreResult} {plan : Plan}
    (h : (if c then .stop refused else plan) = .stop .ok) (hrefused : c → refused ≠ .ok) :
    ¬ c ∧ plan = .stop .ok :=
  (guard_eq_stop h).resolve_left fun hfailed => hrefused hfailed.1 hfailed.2

/-- Looking for a slot never stops with `ok`. -/
theorem putSlot_ne_ok {name : Bytes} : s.putSlot name ≠ .error .ok := by
  unfold putSlot
  intro h
  split at h
  · cases h
  · split at h
    · cases h
    · split at h <;> cases h

/-- `put` never returns `ok` without a write. -/
theorem putPlan_stop {c : Command} : s.putPlan c ≠ .stop .ok := by
  intro h
  unfold putPlan at h
  replace h := (passed_of_stop_ok h fun hrefused => hrefused).2
  replace h := (passed_of_stop_ok h fun hrefused => hrefused).2
  replace h := (passed_of_stop_ok h fun _ => by decide).2
  replace h := (passed_of_stop_ok h fun _ => by decide).2
  split at h
  · rename_i result hslot
    exact putSlot_ne_ok (hslot.trans (congrArg _ (Plan.stop.inj h)))
  · replace h := (passed_of_stop_ok h fun _ => by decide).2
    split at h <;> cases h

/-- `rename` returns `ok` without a write only for the name the command has. -/
theorem renamePlan_stop {id : UInt32} {name : Bytes} (h : s.renamePlan id name = .stop .ok) :
    s.Idle (.rename id name) := by
  unfold renamePlan at h
  obtain ⟨hw, h⟩ := passed_of_stop_ok h fun hrefused => hrefused
  obtain ⟨hname, h⟩ := passed_of_stop_ok h fun hrefused => hrefused
  split at h
  · cases h
  · rename_i slot hslot
    split at h
    · rename_i hsame
      refine ⟨not_not.mp hw, not_not.mp hname, s.slot slot, ?_, hsame⟩
      rw [getById, hslot]
      rfl
    · replace h := (passed_of_stop_ok h fun _ => by decide).2
      split at h <;> cases h

theorem removeByIdPlan_stop {id : UInt32} : s.removeByIdPlan id ≠ .stop .ok := by
  intro h
  unfold removeByIdPlan at h
  replace h := (passed_of_stop_ok h fun hrefused => hrefused).2
  split at h
  · cases h
  · split at h <;> cases h

theorem removePlan_stop {name : Bytes} : s.removePlan name ≠ .stop .ok := by
  intro h
  unfold removePlan at h
  replace h := (passed_of_stop_ok h fun hrefused => hrefused).2
  split at h
  · cases h
  · exact removeByIdPlan_stop h

theorem clearAllPlan_stop (h : s.clearAllPlan = .stop .ok) : s.Idle .clearAll := by
  unfold clearAllPlan at h
  obtain ⟨hb, h⟩ := passed_of_stop_ok h fun _ => by decide
  obtain ⟨hro, h⟩ := passed_of_stop_ok h fun _ => by decide
  split at h
  · rename_i hempty
    exact ⟨by simpa using hb, by simpa using hro, hempty⟩
  · split at h <;> cases h

theorem importCommandPlan_stop {c : Command} : s.importCommandPlan c ≠ .stop .ok := by
  intro h
  unfold importCommandPlan at h
  replace h := (passed_of_stop_ok h fun _ => by decide).2
  replace h := (passed_of_stop_ok h fun _ => by decide).2
  replace h := (passed_of_stop_ok h fun _ => by decide).2
  replace h := (passed_of_stop_ok h fun hrefused => hrefused).2
  replace h := (passed_of_stop_ok h fun _ => by decide).2
  replace h := (passed_of_stop_ok h fun _ => by decide).2
  replace h := (passed_of_stop_ok h fun _ => by decide).2
  split at h
  · cases h
  · replace h := (passed_of_stop_ok h fun _ => by decide).2
    split at h <;> cases h

/-- **An operation that returns `ok` without a write is a documented no-op.** -/
theorem idle_of_stop (h : op.plan s = .stop .ok) : s.Idle op := by
  cases op with
  | put c => exact absurd h putPlan_stop
  | rename id name => exact renamePlan_stop h
  | remove name => exact absurd h removePlan_stop
  | removeById id => exact absurd h removeByIdPlan_stop
  | clearAll => exact clearAllPlan_stop h
  | factoryReset random =>
    simp only [Op.plan, factoryResetPlan] at h
    split at h <;> cases h
  | restoreBegin b id =>
    simp only [Op.plan, restoreBeginPlan] at h
    repeat' split at h
    all_goals cases h
  | importCommand c => exact absurd h importCommandPlan_stop
  | restoreCommit source =>
    simp only [Op.plan, restoreCommitPlan] at h
    repeat' split at h
    all_goals cases h

theorem Idle.noOp (h : s.Idle op) : s.NoOp op := by
  cases op with
  | rename id name => exact h.2.2
  | clearAll => exact h.2.2
  | put | remove | removeById | factoryReset | restoreBegin | importCommand | restoreCommit =>
    exact h.elim

theorem noOp_of_stop (h : op.plan s = .stop .ok) : s.NoOp op := (idle_of_stop h).noOp

/-- **A documented no-op is never written.** -/
theorem stop_of_noOp (h : s.NoOp op) : ∃ result, op.plan s = .stop result := by
  cases op with
  | rename id name =>
    obtain ⟨c, hget, hname⟩ := h
    cases hplan : s.renamePlan id name with
    | stop result => exact ⟨result, hplan⟩
    | write payload next undone =>
      obtain ⟨-, -, slot, rev, hslot, hfree, -⟩ := renamePlan_eq_write hplan
      rw [getById, hslot] at hget
      obtain rfl := Option.some.inj hget
      exact absurd hname (findSlot_eq_none.mp hfree slot (findSlotById_eq_some hslot).1)
  | clearAll =>
    show ∃ result, s.clearAllPlan = .stop result
    unfold clearAllPlan
    split
    · exact ⟨_, rfl⟩
    split
    · exact ⟨_, rfl⟩
    · exact ⟨_, if_pos h⟩
  | put | remove | removeById | factoryReset | restoreBegin | importCommand | restoreCommit =>
    exact h.elim

/-- A no-op that passes its guards returns `ok`. -/
theorem stop_of_idle (h : s.Idle op) : op.plan s = .stop .ok := by
  cases op with
  | rename id name =>
    obtain ⟨hw, hname, c, hget, hsame⟩ := h
    obtain ⟨slot, hslot, rfl⟩ := Option.map_eq_some_iff.mp hget
    show s.renamePlan id name = .stop .ok
    rw [renamePlan, if_neg (not_not_intro hw), if_neg (not_not_intro hname), hslot]
    exact if_pos hsame
  | clearAll =>
    obtain ⟨hb, hro, hempty⟩ := h
    show s.clearAllPlan = .stop .ok
    rw [clearAllPlan, hb, hro]
    exact if_pos hempty
  | put | remove | removeById | factoryReset | restoreBegin | importCommand | restoreCommit =>
    exact h.elim

/-- **What is written goes on from the base revision**, unless it is a factory reset. -/
theorem nextRevision_of_write (hreset : ∀ random, op ≠ .factoryReset random)
    (h : op.plan s = .write payload next undone) :
    nextRevision (s.baseRevision op) = some next.revision := by
  cases op with
  | put c =>
    obtain ⟨-, -, -, -, slot, overwriting, id, rev, -, -, hrev, -, rfl, -⟩ := putPlan_eq_write h
    exact hrev
  | rename id name =>
    obtain ⟨-, -, slot, rev, -, -, hrev, -, rfl, -⟩ := renamePlan_eq_write h
    exact hrev
  | remove name =>
    obtain ⟨_, -, h'⟩ := removePlan_eq_write h
    obtain ⟨-, slot, rev, -, hrev, -, rfl, -⟩ := removeByIdPlan_eq_write h'
    exact hrev
  | removeById id =>
    obtain ⟨-, slot, rev, -, hrev, -, rfl, -⟩ := removeByIdPlan_eq_write h
    exact hrev
  | clearAll =>
    obtain ⟨-, -, rev, hrev, -, rfl, -⟩ := clearAllPlan_eq_write h
    exact hrev
  | factoryReset random => exact absurd rfl (hreset random)
  | restoreBegin b id =>
    obtain ⟨-, -, -, -, rev, hrev, -, rfl, -⟩ := restoreBeginPlan_eq_write h
    exact hrev
  | importCommand c =>
    obtain ⟨-, -, -, -, -, -, -, slot, rev, -, -, hrev, -, rfl, -⟩ := importCommandPlan_eq_write h
    exact hrev
  | restoreCommit source =>
    obtain ⟨-, -, -, rev, hrev, -, rfl, -⟩ := restoreCommitPlan_eq_write h
    exact hrev

/-- A change never touches the reason for read-only mode. -/
theorem Change.fault (h : Change s payload next) : next.fault = s.fault := by
  cases h <;> rfl

end Plans

end CommandStore

/-! ## A device whose flash holds what is in RAM -/

namespace Session

open CommandStore

/-- A boot that finds no header mints an identity. -/
theorem store_boot_fresh {cfg : Config} {flash : Fake UInt32}
    (hload : flash.records.load cfg.headerKey StoredHeader.codec.width = none)
    (random : Option BridgeId) :
    (boot (fun _ => true) cfg random flash).store = (configure cfg).mintIdentity random :=
  congrArg (fun out => out.2.1) (boot_of_no_header cfg
    (StorageBackend.sound : StorageBackend UInt32 (Fake UInt32)) flash random hload)

/-- The flash holds the store in RAM, which is writable. -/
structure Settled (cfg : Config) (x : Session) : Prop where
  config : x.store.config = cfg
  backend : x.store.backend = true
  writable : x.store.readOnly = false
  fault : x.store.fault = .none
  sound : x.store.Sound
  flash : Holds x.flash.records x.store

namespace Settled

variable {cfg : Config} {x : Session}

/-- A device whose boot finds no header and writes one. -/
theorem fresh {flash : Fake UInt32}
    (hload : flash.records.load cfg.headerKey StoredHeader.codec.width = none)
    (random : Option BridgeId) : Settled cfg (boot (fun _ => true) cfg random flash) := by
  have hstore := store_boot_fresh hload random
  refine ⟨?_, ?_, ?_, ?_, ?_, ?_⟩
  all_goals rw [hstore]
  · rfl
  · rfl
  · rfl
  · rfl
  · exact mint_sound cfg random
  · rw [records_boot_fresh hload]
    exact Holds.of_apply (Coherent.of_empty (s := (configure cfg).mintIdentity random) rfl)

/-- A device on its first boot. -/
theorem powerOn (cfg : Config) (random : Option BridgeId) :
    Settled cfg (powerOn (fun _ => true) cfg random) :=
  fresh rfl random

/-- **A reboot changes nothing.** -/
theorem reboot (h : Settled cfg x) (hpos : cfg.maxCommands ≠ 0) (random : Option BridgeId) :
    step (fun _ => true) x (.reboot cfg random) = x := by
  obtain ⟨rfl, hbackend, hwritable, hfault, hsound, hflash⟩ := h
  have hload : (StorageBackend.sound : StorageBackend UInt32 (Fake UInt32)).load x.store.config.headerKey
      StoredHeader.codec.width x.flash = some (headerRecord x.store.config) :=
    Records.load_eq_some.mpr ⟨hflash.header, length_headerRecord _⟩
  have hio : (CommandStore.boot StorageBackend.sound x.store.config random x.flash).2.2 = x.flash :=
    congrArg (fun out => out.2.2) (boot_of_header x.store.config StorageBackend.sound x.flash random hload)
  have himage : Image x.flash.records x.store :=
    { header := ⟨_, Records.load_eq_some.mpr ⟨hflash.header, length_headerRecord _⟩,
        headerStates_headerRecord _ hpos⟩
      index := hflash.index
      payloads := fun i _ hocc => hflash.coherent i hocc }
  have hreadable := himage.readable (fun i _ => hsound.storable_slot i ‹_›) rfl
  have hdecoded := hsound.decoded_eq himage
  have hmeta : storedMetaOf x.store.indexRecord = x.store.storedMeta :=
    storedMetaOf_indexRecord x.store
  have hstore : (CommandStore.boot StorageBackend.sound x.store.config random x.flash).2.1 = x.store := by
    have hboot := boot_store_eq (B := StorageBackend.sound) (r := x.flash.records) rfl
      x.store.config random
    rw [hboot, reboot_of_readable hreadable]
    have hslots : (decoded x.flash.records.load x.store.config x.store.config.maxCommands
        x.store.indexRecord).slots = x.store.slots := congrArg Registry.slots hdecoded
    unfold decoded at hslots ⊢
    rw [hmeta]
    dsimp only at hslots
    rw [hslots]
    obtain ⟨store, flash⟩ := x
    dsimp only at hbackend hwritable hfault ⊢
    obtain ⟨backend, config, bridgeId, nextCommandId, revision, restoreState, readOnly, fault,
      slots⟩ := store
    dsimp only at hbackend hwritable hfault
    subst hbackend hwritable hfault
    rfl
  show (⟨(CommandStore.boot StorageBackend.sound x.store.config random x.flash).2.1,
    (CommandStore.boot StorageBackend.sound x.store.config random x.flash).2.2⟩ : Session) = x
  rw [hstore, hio]

/-- **A write leaves the device settled again**, with what was written in RAM. -/
theorem write (h : Settled cfg x) (hpos : cfg.maxCommands ≠ 0) {op : Op} {payload : Option Nat}
    {next undone : CommandStore} (hplan : op.plan x.store = .write payload next undone) :
    (op.run (faulty fun _ => true) x.store x.flash).1 = .ok ∧
    (step (fun _ => true) x (.op op)).store = next ∧
    Settled cfg (step (fun _ => true) x (.op op)) := by
  obtain ⟨hok, hstore, hrec⟩ := (step_cases (fun _ => true) hplan).resolve_right
    fun ⟨_, _, n, _, _, _, hfail⟩ => Bool.noConfusion hfail
  obtain ⟨hsound, hconfig, hbackend⟩ := op_next (fun _ => h.sound) hplan
  have hpos' : x.store.config.maxCommands ≠ 0 := h.config.symm ▸ hpos
  have hcoherent := (op_written (fun _ => h.sound) hpos' (fun _ => h.flash.coherent) hplan).1
  refine ⟨hok, hstore, ⟨?_, ?_, ?_, ?_, ?_, ?_⟩⟩
  all_goals rw [hstore]
  · exact hconfig.trans h.config
  · exact hbackend.trans h.backend
  · rcases op_change (fun _ => h.sound) hplan with ⟨-, hchange, -⟩ | ⟨random, -, -, rfl, -⟩
    · exact hchange.readOnly.trans h.writable
    · rfl
  · rcases op_change (fun _ => h.sound) hplan with ⟨-, hchange, -⟩ | ⟨random, -, -, rfl, -⟩
    · exact hchange.fault.trans h.fault
    · rfl
  · exact hsound
  · rw [hrec]
    refine ⟨?_, ?_, hcoherent⟩
    · rw [CommandStore.records, Records.apply_append]
      exact apply_indexRecords_header
    · rw [CommandStore.records, Records.apply_append]
      exact apply_indexRecords_index

/-- **One operation**: it leaves the device as it was, or moves the revision up. -/
theorem op (h : Settled cfg x) (hpos : cfg.maxCommands ≠ 0) {op : Op}
    (hreset : ∀ random, op ≠ .factoryReset random) :
    Settled cfg (step (fun _ => true) x (.op op)) ∧
    (step (fun _ => true) x (.op op) = x ∨
      x.store.revision < (step (fun _ => true) x (.op op)).store.revision) := by
  cases hplan : op.plan x.store with
  | stop result =>
    rw [step_of_stop _ hplan]
    exact ⟨h, Or.inl rfl⟩
  | write payload next undone =>
    obtain ⟨-, hstore, hsettled⟩ := h.write hpos hplan
    refine ⟨hsettled, Or.inr ?_⟩
    rw [hstore]
    have hrev := (nextRevision_eq_some (nextRevision_of_write hreset hplan)).1
    have hbase := revision_le_baseRevision x.store op
    exact UInt32.lt_iff_toNat_lt.mpr (by omega)

/-- **Nothing happened, or the revision is higher.**  Induction on the events. -/
theorem run_eq_or_lt (h : Settled cfg x) (hpos : cfg.maxCommands ≠ 0) {events : List Event}
    (hevents : ∀ e ∈ events, e.Under (· = cfg) ∧ ∀ random, e ≠ .op (.factoryReset random)) :
    Settled cfg (run (fun _ => true) x events) ∧
    (run (fun _ => true) x events = x ∨
      x.store.revision < (run (fun _ => true) x events).store.revision) := by
  induction events generalizing x with
  | nil => exact ⟨h, Or.inl rfl⟩
  | cons e events ih =>
    obtain ⟨hunder, hreset⟩ := hevents e List.mem_cons_self
    have hone : Settled cfg (step (fun _ => true) x e) ∧ (step (fun _ => true) x e = x ∨
        x.store.revision < (step (fun _ => true) x e).store.revision) := by
      cases e with
      | op op => exact h.op hpos fun random heq => hreset random (congrArg Event.op heq)
      | reboot config random =>
        obtain rfl : config = cfg := hunder
        rw [h.reboot hpos random]
        exact ⟨h, Or.inl rfl⟩
    obtain ⟨hrest, hle⟩ := ih hone.1 fun e he => hevents e (List.mem_cons_of_mem _ he)
    refine ⟨hrest, ?_⟩
    show run (fun _ => true) (step (fun _ => true) x e) events = x ∨ x.store.revision
      < (run (fun _ => true) (step (fun _ => true) x e) events).store.revision
    rcases hone.2 with hsame | hlt
    · rw [hsame] at hle ⊢
      exact hle
    · right
      rcases hle with hsame | hlt'
      · rw [hsame]
        exact hlt
      · exact UInt32.lt_trans hlt hlt'

end Settled

/-- What an operation does to the revision: a refusal and a documented no-op leave the store and the
    flash as they were; `restore_commit` goes on from the higher of the two revisions it knows, and
    everything else from its own. -/
structure Counts (op : Op) (x : Session) : Prop where
  refused : (op.run (faulty fun _ => true) x.store x.flash).1 ≠ .ok →
    (op.run (faulty fun _ => true) x.store x.flash).2 = (x.store, x.flash)
  noOp : x.store.NoOp op → (op.run (faulty fun _ => true) x.store x.flash).2 = (x.store, x.flash)
  commits : ∀ source, op = .restoreCommit source →
    (op.run (faulty fun _ => true) x.store x.flash).1 = .ok →
    (op.run (faulty fun _ => true) x.store x.flash).2.1.revision.toNat
      = max source.toNat x.store.revision.toNat + 1
  advances : (∀ source, op ≠ .restoreCommit source) → ¬ x.store.NoOp op →
    (op.run (faulty fun _ => true) x.store x.flash).1 = .ok →
    (op.run (faulty fun _ => true) x.store x.flash).2.1.revision.toNat
      = x.store.revision.toNat + 1

/-- An operation on a settled device counts as it should. -/
theorem Settled.counts {cfg : Config} {x : Session} (h : Settled cfg x) (hpos : cfg.maxCommands ≠ 0)
    {op : Op} (hreset : ∀ random, op ≠ .factoryReset random) : Counts op x := by
  cases hplan : op.plan x.store with
  | stop result =>
    have hrun : op.run (faulty fun _ => true) x.store x.flash = (result, x.store, x.flash) :=
      Op.run_of_stop hplan x.flash
    have hok : (op.run (faulty fun _ => true) x.store x.flash).1 = .ok → x.store.NoOp op := by
      intro hok
      rw [hrun] at hok
      obtain rfl : result = .ok := hok
      exact noOp_of_stop hplan
    refine ⟨fun _ => by rw [hrun], fun _ => by rw [hrun], ?_, fun _ hno hout => absurd (hok hout) hno⟩
    rintro source rfl hout
    exact (hok hout).elim
  | write payload next undone =>
    obtain ⟨hok, hstore, -⟩ := h.write hpos hplan
    have hnot : ¬ x.store.NoOp op := by
      intro hno
      obtain ⟨result, hstop⟩ := stop_of_noOp hno
      rw [hplan] at hstop
      cases hstop
    have hstore' : (op.run (faulty fun _ => true) x.store x.flash).2.1 = next := hstore
    have hrev := (nextRevision_eq_some (nextRevision_of_write hreset hplan)).1
    refine ⟨fun hne => absurd hok hne, fun hno => absurd hno hnot, ?_, ?_⟩
    · rintro source rfl -
      rw [hstore', hrev, toNat_baseRevision_restoreCommit]
    · intro hcommit _ _
      rw [hstore', hrev]
      cases op with
      | restoreCommit source => exact absurd rfl (hcommit source)
      | _ => rfl

/-- **The revision is a sound change token on one device.**  Whatever operations a fresh device has
    gone through, with succeeding saves, reboots and no factory reset, and whatever it goes through
    after: the revision stays within its range and never decreases, at two moments with the same
    revision it reports the same registry, and every operation counts as it should. -/
theorem revision_sound {cfg : Config} (hpos : cfg.maxCommands ≠ 0) (random : Option BridgeId)
    {earlier later : List Event}
    (hevents : ∀ e ∈ earlier ++ later,
      e.Under (· = cfg) ∧ ∀ random, e ≠ .op (.factoryReset random)) :
    let x := run (fun _ => true) (powerOn (fun _ => true) cfg random) earlier
    let y := run (fun _ => true) x later
    (revisionInitial ≤ x.store.revision ∧ x.store.revision ≤ revisionMax) ∧
    x.store.revision ≤ y.store.revision ∧
    (x.store.revision = y.store.revision → x.store.status = y.store.status) ∧
    ∀ op, (∀ random, op ≠ .factoryReset random) → Counts op x := by
  intro x y
  have hx : Settled cfg x := ((Settled.powerOn cfg random).run_eq_or_lt hpos
    fun e he => hevents e (List.mem_append_left _ he)).1
  have hy := (hx.run_eq_or_lt hpos fun e he => hevents e (List.mem_append_right _ he)).2
  refine ⟨⟨hx.sound.revision_pos, hx.sound.revision_le⟩, ?_, ?_, fun op hreset => hx.counts hpos hreset⟩
  · rcases hy with hsame | hlt
    · rw [show y = x from hsame]
      exact UInt32.le_refl _
    · exact UInt32.le_of_lt hlt
  · intro hrev
    rcases hy with hsame | hlt
    · rw [show y = x from hsame]
    · rw [show x.store.revision = y.store.revision from hrev] at hlt
      exact absurd hlt (UInt32.lt_irrefl _)

/-- A device on which a restore is committed at the highest revision a source may have, and the
    device after a reboot and a refused operation. -/
theorem revision_sound_after_commit :
    let x := run (fun _ => true) (powerOn (fun _ => true) ⟨1, 4, 200, 7⟩ none)
      [.op (.restoreBegin BridgeId.zero 1), .op (.restoreCommit (revisionMax - 1))]
    let y := run (fun _ => true) x [.reboot ⟨1, 4, 200, 7⟩ none, .op (.restoreCommit 1)]
    (revisionInitial ≤ x.store.revision ∧ x.store.revision ≤ revisionMax) ∧
    x.store.revision ≤ y.store.revision ∧
    (x.store.revision = y.store.revision → x.store.status = y.store.status) ∧
    ∀ op, (∀ random, op ≠ .factoryReset random) → Counts op x := by
  refine revision_sound (by decide) none ?_
  intro e he
  simp only [List.cons_append, List.nil_append, List.mem_cons, List.not_mem_nil, or_false] at he
  rcases he with rfl | rfl | rfl | rfl <;>
    exact ⟨by first | exact rfl | exact trivial, fun _ h => by cases h⟩

end Session

end RfCloner
