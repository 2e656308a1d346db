/-
  The store on ESPHome's preferences, where a save is only staged.

  There `save` always succeeds and the write happens, or fails, in `sync`; the operations look at
  `save` and ignore `sync`.  The invariant of a device on such a backend is that of `Session`, for
  what is committed and for what a reader sees, and RAM is coherent with what a reader sees
  (`StagedDevice.Kept`): everything is as it should be *once it is committed*.
  `ok_committed_iff` is what an `ok` promises about the next power cycle: an operation that writes
  keeps it exactly if its sync commits, one that has nothing to do exactly if RAM was committed.
-/
import RfCloner.Lib.Runs
import RfCloner.Store.Revision
import RfCloner.Store.Rollback

namespace RfCloner

open FixedCodec StorageBackend CommandStore

/-- A device whose flash stages its saves. -/
structure StagedDevice where
  store : CommandStore
  flash : Staged UInt32

namespace StagedDevice

variable (commits : Nat → Bool)

/-- `configure` and `begin`. -/
def boot (config : Config) (random : Option BridgeId) (flash : Staged UInt32) : StagedDevice :=
  let out := CommandStore.boot (staged commits) config random flash
  ⟨out.2.1, out.2.2⟩

/-- The first boot of a fresh device. -/
def powerOn (config : Config) (random : Option BridgeId) : StagedDevice :=
  boot commits config random { committed := fun _ => none }

/-- One event; a reboot is a power cycle, which loses what is not committed. -/
def step (x : StagedDevice) : Event → StagedDevice
  | .op op =>
    let out := op.run (staged commits) x.store x.flash
    ⟨out.2.1, out.2.2⟩
  | .reboot config random => boot commits config random x.flash.powerCycle

/-- A run of events. -/
def run (x : StagedDevice) (events : List Event) : StagedDevice := events.foldl (step commits) x

/-! ## What one operation does -/

section Write

variable {commits}

theorem view_stage (st : Staged UInt32) (ws : List (UInt32 × Bytes)) :
    ({ st with pending := st.pending ++ ws } : Staged UInt32).view = st.view.apply ws :=
  Records.apply_append _ _ _

variable (commits) in
/-- A sync changes nothing a reader sees; it commits all of that or nothing. -/
theorem sync_spec (st : Staged UInt32) :
    ((staged commits).sync st).2.view = st.view ∧
    ((staged commits).sync st).2.committed = if commits st.syncs then st.view else st.committed := by
  show (if commits st.syncs then _ else _ : Bool × Staged UInt32).2.view = st.view ∧
    (if commits st.syncs then _ else _ : Bool × Staged UInt32).2.committed = _
  by_cases h : commits st.syncs = true
  · rw [if_pos h, if_pos h]
    exact ⟨rfl, rfl⟩
  · rw [if_neg h, if_neg h]
    exact ⟨rfl, rfl⟩

variable (commits) in
/-- **On a staged backend every write returns `ok`**, and commits with the next sync or not at all. -/
theorem run_staged {op : Op} {s next undone : CommandStore} {payload : Option Nat}
    (hplan : op.plan s = .write payload next undone) (st : Staged UInt32) :
    let out := op.run (staged commits) s st
    out.1 = .ok ∧ out.2.1 = next ∧ out.2.2.view = st.view.apply (next.records payload) ∧
    out.2.2.committed
      = if commits st.syncs then st.view.apply (next.records payload) else st.committed := by
  intro out
  have hout : out = _ := run_of_write (staged commits) hplan st
  rw [saveAll_staged, if_pos rfl] at hout
  have hsync := sync_spec commits
    ({ st with pending := st.pending ++ next.records payload } : Staged UInt32)
  rw [view_stage] at hsync
  rw [hout]
  exact ⟨rfl, rfl, hsync⟩

end Write

/-! ## What every run keeps -/

/-- The invariant of a device with staged saves. -/
structure Kept (cfg : Config) (x : StagedDevice) : Prop where
  config : x.store.config = cfg
  ram : x.store.readOnly = false → x.store.Sound
  coherent : x.store.readOnly = false → Coherent x.store x.flash.view
  view : Stored Sound cfg x.flash.view
  committed : Stored Sound cfg x.flash.committed

section Kept

variable {commits : Nat → Bool} {cfg : Config}

variable (commits) in
/-- Booting a fresh device: the identity is minted, staged and synced. -/
theorem boot_fresh {flash : Staged UInt32} (hheader : flash.view cfg.headerKey = none)
    (random : Option BridgeId) :
    let minted := (configure cfg).mintIdentity random
    let x := boot commits cfg random flash
    x.store = minted ∧ x.flash.view = flash.view.apply minted.indexRecords ∧
    x.flash.committed
      = if commits flash.syncs then flash.view.apply minted.indexRecords else flash.committed := by
  intro minted x
  have hload : (staged commits).load cfg.headerKey StoredHeader.codec.width flash = none := by
    show flash.view.load cfg.headerKey StoredHeader.codec.width = none
    rw [Records.load, hheader]
    rfl
  have hboot := boot_of_no_header cfg (staged commits) flash random hload
  rw [writeIndex_eq_saveAll, saveAll_staged] at hboot
  have hsync := sync_spec commits
    ({ flash with pending := flash.pending ++ minted.indexRecords } : Staged UInt32)
  rw [view_stage] at hsync
  have hflash : x.flash = ((staged commits).sync
      { flash with pending := flash.pending ++ minted.indexRecords }).2 :=
    congrArg (fun out => out.2.2) hboot
  rw [hflash]
  exact ⟨congrArg (fun out => out.2.1) hboot, hsync⟩

/-- Booting from flash nothing is pending on. -/
theorem Kept.boot {flash : Staged UInt32} (hpending : flash.view = flash.committed)
    (hflash : Stored Sound cfg flash.committed) (random : Option BridgeId) :
    Kept cfg (boot commits cfg random flash) := by
  have hP := preserved_sound (· = cfg)
  have hstore : (StagedDevice.boot commits cfg random flash).store
      = (Session.boot (fun _ => true) cfg random ⟨flash.view, 0⟩).store :=
    boot_store_eq (B := staged commits) rfl cfg random
  have hview : Stored Sound cfg flash.view := hpending.symm ▸ hflash
  have hkept : Session.Kept (· = cfg) Sound
      (Session.boot (fun _ => true) cfg random ⟨flash.view, 0⟩) :=
    Session.Kept.boot hP rfl hview random
  -- a boot reads the view and saves nothing unless there is no header
  by_cases hheader : flash.view cfg.headerKey = none
  · obtain ⟨hminted, hview', hcommitted'⟩ := boot_fresh commits hheader random
    have hwritten : Stored Sound cfg
        (flash.view.apply ((configure cfg).mintIdentity random).indexRecords) :=
      Stored.apply_indexRecords (t := (configure cfg).mintIdentity random) (mint_sound cfg random)
    refine ⟨by rw [hminted]; rfl, ?_, ?_, ?_, ?_⟩
    · rw [hstore]
      exact hkept.ram
    · intro _
      rw [hminted]
      exact Coherent.of_empty rfl
    · rw [hview']
      exact hwritten
    · rw [hcommitted']
      split
      · exact hwritten
      · exact hflash
  · obtain ⟨written, t, -, -, hh, -⟩ := hview.resolve_left hheader
    have hload : (staged commits).load cfg.headerKey StoredHeader.codec.width flash
        = some (headerRecord written) :=
      Records.load_eq_some.mpr ⟨hh, length_headerRecord written⟩
    have hflash' : (StagedDevice.boot commits cfg random flash).flash = flash :=
      congrArg (fun out => out.2.2) (boot_of_header cfg (staged commits) flash random hload)
    have hfake : Stored Sound cfg (⟨flash.view, 0⟩ : Fake UInt32).records := hview
    have hcoh := Session.coherent_boot (fun _ => true) hP hfake random
    obtain ⟨-, -, hsame, -⟩ := Session.boot_stored (fun _ => true) hP.sound hfake hheader random
    refine ⟨by rw [hstore]; exact hkept.allowed, ?_, ?_, ?_, ?_⟩
    · rw [hstore]
      exact hkept.ram
    · intro hro
      rw [hstore] at hro ⊢
      rw [hflash']
      have hc := hcoh hro
      rwa [hsame] at hc
    · rw [hflash']
      exact hview
    · rw [hflash']
      exact hflash

theorem Kept.powerOn (random : Option BridgeId) :
    Kept cfg (powerOn commits cfg random) :=
  Kept.boot rfl (Or.inl rfl) random

/-- One operation. -/
theorem Kept.op (hpos : cfg.maxCommands ≠ 0) {x : StagedDevice} (hx : Kept cfg x) (op : Op) :
    Kept cfg (step commits x (.op op)) := by
  cases hplan : op.plan x.store with
  | stop result =>
    have hstep : step commits x (.op op) = x := by rw [step, Op.run_of_stop hplan]
    rw [hstep]
    exact hx
  | write payload next undone =>
    obtain ⟨hsound, hconfig, -⟩ := op_next hx.ram hplan
    rw [hx.config] at hconfig
    obtain ⟨-, hstore, hview, hcommitted⟩ := run_staged commits hplan x.flash
    have hstore' : (step commits x (.op op)).store = next := hstore
    have hview' : (step commits x (.op op)).flash.view
        = x.flash.view.apply (next.records payload) := hview
    have hcommitted' : (step commits x (.op op)).flash.committed
        = if commits x.flash.syncs then x.flash.view.apply (next.records payload)
          else x.flash.committed := hcommitted
    have hstored : Stored Sound cfg (x.flash.view.apply (next.records payload)) := by
      have h := Stored.apply_records (t := next) (hconfig ▸ hx.view) hsound payload
        (next.records payload).length
      rw [List.take_length, hconfig] at h
      exact h
    have hcoh := (op_written hx.ram (hx.config ▸ hpos) hx.coherent hplan).1
    refine ⟨by rw [hstore']; exact hconfig, ?_, ?_, by rw [hview']; exact hstored, ?_⟩
    · intro _
      rw [hstore']
      exact hsound
    · intro _
      rw [hstore', hview']
      exact hcoh
    · rw [hcommitted']
      split
      · exact hstored
      · exact hx.committed

theorem Kept.run (hpos : cfg.maxCommands ≠ 0) {x : StagedDevice} (hx : Kept cfg x)
    {events : List Event} (hevents : ∀ e ∈ events, e.Under (· = cfg)) :
    Kept cfg (run commits x events) := by
  induction events generalizing x with
  | nil => exact hx
  | cons e events ih =>
    refine ih ?_ fun e he => hevents e (List.mem_cons_of_mem _ he)
    cases e with
    | op op => exact Kept.op hpos hx op
    | reboot config random =>
      obtain rfl : config = cfg := hevents _ List.mem_cons_self
      have hpending : x.flash.powerCycle.view = x.flash.powerCycle.committed := rfl
      exact Kept.boot hpending hx.committed random

end Kept

/-! ## What an `ok` promises -/

/-- What `begin` finds after the power has been cut and come back. -/
def LoadsAfterPowerCycle (cfg : Config) (st : Staged UInt32) (reg : Registry) : Prop :=
  ∀ random, (CommandStore.boot (staged commits) cfg random st.powerCycle).2.1.readOnly = false ∧
    (CommandStore.boot (staged commits) cfg random st.powerCycle).2.1.registry = reg

theorem loadsAfterPowerCycle_iff {cfg : Config} {st : Staged UInt32} {reg : Registry} :
    LoadsAfterPowerCycle commits cfg st reg ↔ Restores cfg st.committed reg := by
  have hstore : ∀ random, (CommandStore.boot (staged commits) cfg random st.powerCycle).2.1
      = reboot cfg random st.committed := fun random =>
    boot_store_eq (B := staged commits) rfl cfg random
  rw [LoadsAfterPowerCycle, Restores]
  simp only [hstore]

/-- The registry in RAM is the one the next power cycle brings back. -/
def Committed (cfg : Config) (x : StagedDevice) : Prop :=
  Restores cfg x.flash.committed x.store.registry

/-- Nothing has ever been committed, so the next power cycle brings back a new device. -/
def Blank (cfg : Config) (x : StagedDevice) : Prop := x.flash.committed cfg.headerKey = none

/-- What is committed is the registry of a new device with this identity. -/
def Remints (cfg : Config) (x : StagedDevice) (random : Option BridgeId) : Prop :=
  Restores cfg x.flash.committed ((configure cfg).mintIdentity random).registry

/-- If the operation returns `ok`, its registry is loaded after a power cycle. -/
def Truthful (cfg : Config) (x : StagedDevice) (op : Op) : Prop :=
  let out := op.run (staged commits) x.store x.flash
  out.1 = .ok → LoadsAfterPowerCycle commits cfg out.2.2 out.2.1.registry

/-- What stands behind the `ok` of an operation, before it runs: if its guards let it write, the
    next sync commits, or it is a factory reset to what is committed; if it has nothing to do, the
    registry in RAM is committed. -/
structure Backed (cfg : Config) (x : StagedDevice) (op : Op) : Prop where
  writes : op.Accepts x.store →
    commits x.flash.syncs = true ∨ ∃ random, op = .factoryReset random ∧ Remints cfg x random
  idles : x.store.Idle op → Committed cfg x

section Unsynced

variable {commits : Nat → Bool} {cfg : Config}

/-- A fresh device whose first sync succeeds has its identity committed. -/
theorem boot_fresh_restores (hpos : cfg.maxCommands ≠ 0) {flash : Staged UInt32}
    (hheader : flash.view cfg.headerKey = none) (hsync : commits flash.syncs = true)
    (random : Option BridgeId) : Committed cfg (boot commits cfg random flash) := by
  obtain ⟨hstore, -, hcommitted⟩ := boot_fresh commits hheader random
  rw [if_pos hsync] at hcommitted
  rw [Committed, hstore, hcommitted]
  refine Restores.of_image (s := (configure cfg).mintIdentity random) (mint_sound cfg random)
    (Image.of_apply_indexRecords hpos ?_)
  intro i _ hocc
  have hfree : ((configure cfg).mintIdentity random).slot i = {} := slot_of_replicate rfl i
  rw [hfree] at hocc
  cases hocc

/-- What is written and synced is committed. -/
theorem synced_write_kept (hpos : cfg.maxCommands ≠ 0) {x : StagedDevice} (hx : Kept cfg x) {op : Op}
    {payload : Option Nat} {next undone : CommandStore}
    (hplan : op.plan x.store = .write payload next undone) (hsync : commits x.flash.syncs = true) :
    Committed cfg (step commits x (.op op)) := by
  obtain ⟨-, hstore, -, hflash⟩ := run_staged commits hplan x.flash
  rw [if_pos hsync] at hflash
  have hwritten := (op_written hx.ram (hx.config ▸ hpos) hx.coherent hplan).2
  rw [(op_next hx.ram hplan).2.1, hx.config] at hwritten
  rw [Committed, show (step commits x (.op op)).store = next from hstore,
    show (step commits x (.op op)).flash.committed = _ from hflash]
  exact hwritten

/-- **A write whose sync fails is lost**, though it returned `ok`: where the registry in RAM was
    committed before, it is still what a power cycle brings back. -/
theorem unsynced_write_lost {x : StagedDevice} (hx : Kept cfg x) (hcommitted : Committed cfg x)
    {op : Op} (hop : ∀ random, op ≠ .factoryReset random) {payload : Option Nat}
    {next undone : CommandStore} (hplan : op.plan x.store = .write payload next undone)
    (hsync : commits x.flash.syncs = false) :
    let out := op.run (staged commits) x.store x.flash
    out.1 = .ok ∧ ¬ LoadsAfterPowerCycle commits cfg out.2.2 out.2.1.registry := by
  intro out
  obtain ⟨hok, hstore, -, hflash⟩ := run_staged commits hplan x.flash
  rw [hsync, if_neg Bool.false_ne_true] at hflash
  refine ⟨hok, fun h => ?_⟩
  rw [loadsAfterPowerCycle_iff, show out.2.2.committed = _ from hflash,
    show out.2.1 = next from hstore] at h
  obtain ⟨hro, hchange, -⟩ := (op_change hx.ram hplan).resolve_right
    fun ⟨random, hreset, _⟩ => hop random hreset
  have hrev : x.store.revision = next.revision := congrArg Registry.revision (hcommitted.unique h)
  have hlt := hchange.revision_lt (hx.ram hro)
  rw [hrev] at hlt
  exact UInt32.lt_irrefl _ hlt

/-- What a factory reset makes of a store is the registry of a new device. -/
theorem registry_resetStore (s : CommandStore) (random : Option BridgeId) :
    (s.resetStore random).resume.registry = ((configure s.config).mintIdentity random).registry :=
  rfl

/-- A blank device brings nothing back. -/
theorem Blank.not_restores {x : StagedDevice} (h : Blank cfg x) {reg : Registry} :
    ¬ Restores cfg x.flash.committed reg := by
  intro hrestores
  obtain ⟨raw, hraw⟩ := hrestores.header
  rw [Records.load, h] at hraw
  cases hraw

/-- What a truthful write leaves is committed. -/
theorem committed_of_truthful {x : StagedDevice} {op : Op} {payload : Option Nat}
    {next undone : CommandStore} (hplan : op.plan x.store = .write payload next undone)
    (h : Truthful commits cfg x op) : Committed cfg (step commits x (.op op)) :=
  (loadsAfterPowerCycle_iff commits).mp (h (run_staged commits hplan x.flash).1)

/-- What is backed is truthful, whatever the flash holds. -/
theorem Backed.truthful (hpos : cfg.maxCommands ≠ 0) {x : StagedDevice} (hx : Kept cfg x) {op : Op}
    (h : Backed commits cfg x op) : Truthful commits cfg x op := by
  rw [Truthful, loadsAfterPowerCycle_iff]
  intro hok
  cases hplan : op.plan x.store with
  | stop result =>
    rw [Op.run_of_stop hplan] at hok ⊢
    obtain rfl : result = .ok := hok
    exact h.idles (idle_of_stop hplan)
  | write payload next undone =>
    by_cases hc : commits x.flash.syncs = true
    · exact synced_write_kept hpos hx hplan hc
    · obtain ⟨random, rfl, hremints⟩ := (h.writes (accepts_of_write hplan)).resolve_left hc
      obtain ⟨-, -, rfl, -⟩ := factoryResetPlan_eq_write hplan
      obtain ⟨-, hstore, -, hflash⟩ := run_staged commits hplan x.flash
      rw [if_neg hc] at hflash
      rw [hstore, hflash, registry_resetStore, hx.config]
      exact hremints

/-- What is truthful is backed, where the registry in RAM was committed before or nothing ever was. -/
theorem Truthful.backed {x : StagedDevice} (hx : Kept cfg x) (hbase : Committed cfg x ∨ Blank cfg x)
    {op : Op} (h : Truthful commits cfg x op) : Backed commits cfg x op := by
  constructor
  · intro hacc
    by_cases hc : commits x.flash.syncs = true
    · exact Or.inl hc
    obtain ⟨payload, next, undone, hplan⟩ := write_of_accepts hacc
    have hlost : Restores cfg x.flash.committed next.registry := by
      obtain ⟨-, hstore, -, hflash⟩ := run_staged commits hplan x.flash
      rw [if_neg hc] at hflash
      have hcommitted := committed_of_truthful hplan h
      rwa [Committed, show (step commits x (.op op)).store = next from hstore,
        show (step commits x (.op op)).flash.committed = _ from hflash] at hcommitted
    by_cases hreset : ∃ random, op = .factoryReset random
    · obtain ⟨random, rfl⟩ := hreset
      obtain ⟨-, -, rfl, -⟩ := factoryResetPlan_eq_write hplan
      rw [registry_resetStore, hx.config] at hlost
      exact Or.inr ⟨random, rfl, hlost⟩
    · rcases hbase with hcommitted | hblank
      · obtain ⟨hok, hnot⟩ := unsynced_write_lost hx hcommitted (not_exists.mp hreset) hplan
          (Bool.eq_false_iff.mpr hc)
        exact absurd (h hok) hnot
      · exact absurd hlost hblank.not_restores
  · intro hidle
    have hout := Op.run_of_stop (B := staged commits) (stop_of_idle hidle) x.flash
    have hloads := (loadsAfterPowerCycle_iff commits).mp (h (congrArg Prod.fst hout))
    rwa [hout] at hloads

/-- A device that boots from blank flash commits its identity, or stays blank. -/
theorem based_boot (hpos : cfg.maxCommands ≠ 0) {flash : Staged UInt32}
    (hpending : flash.view = flash.committed) (hblank : flash.committed cfg.headerKey = none)
    (random : Option BridgeId) :
    Committed cfg (boot commits cfg random flash) ∨ Blank cfg (boot commits cfg random flash) := by
  rw [← hpending] at hblank
  by_cases hsync : commits flash.syncs = true
  · exact Or.inl (boot_fresh_restores hpos hblank hsync random)
  · refine Or.inr ?_
    rw [Blank, (boot_fresh commits hblank random).2.2, if_neg hsync, ← hpending]
    exact hblank

/-- As long as every `ok` is kept, the registry in RAM is committed, or nothing is. -/
theorem based_step (hpos : cfg.maxCommands ≠ 0) {x : StagedDevice}
    (hbase : Committed cfg x ∨ Blank cfg x) {e : Event} (he : e.Under (· = cfg))
    (htruth : ∀ op, e = .op op → Truthful commits cfg x op) :
    Committed cfg (step commits x e) ∨ Blank cfg (step commits x e) := by
  cases e with
  | op op =>
    cases hplan : op.plan x.store with
    | stop result =>
      have hstep : step commits x (.op op) = x := by rw [step, Op.run_of_stop hplan]
      rw [hstep]
      exact hbase
    | write payload next undone => exact Or.inl (committed_of_truthful hplan (htruth op rfl))
  | reboot config random =>
    obtain rfl : config = cfg := he
    rcases hbase with hcommitted | hblank
    · obtain ⟨raw, hraw⟩ := hcommitted.header
      have hflash : (step commits x (.reboot config random)).flash = x.flash.powerCycle :=
        congrArg (fun out => out.2.2) (boot_of_header config (staged commits) x.flash.powerCycle
          random hraw)
      have hstore : (step commits x (.reboot config random)).store
          = reboot config random x.flash.committed := boot_store_eq (B := staged commits) rfl _ _
      refine Or.inl ?_
      rw [Committed, hflash, hstore, (hcommitted random).2]
      exact hcommitted
    · exact based_boot hpos (show x.flash.powerCycle.view = x.flash.powerCycle.committed from rfl)
        hblank random

end Unsynced

/-- **What an `ok` promises on a staged backend.**  At every moment of every run of operations and
    power cycles, whichever syncs fail, an operation that is backed keeps its promise; where the
    registry in RAM is committed, or nothing ever was, no other operation does; and the operations of
    the run all keep their promises exactly if they are all backed. -/
theorem ok_committed_iff {cfg : Config} (hpos : cfg.maxCommands ≠ 0) (commits : Nat → Bool)
    (random : Option BridgeId) {events : List Event} (hevents : ∀ e ∈ events, e.Under (· = cfg)) :
    let moment := Runs.moment (step commits) (powerOn commits cfg random) events
    (∀ k op, Backed commits cfg (moment k) op → Truthful commits cfg (moment k) op) ∧
    (∀ k op, Committed cfg (moment k) ∨ Blank cfg (moment k) →
      (Truthful commits cfg (moment k) op ↔ Backed commits cfg (moment k) op)) ∧
    ((∀ k op, events[k]? = some (.op op) → Truthful commits cfg (moment k) op) ↔
      ∀ k op, events[k]? = some (.op op) → Backed commits cfg (moment k) op) := by
  intro moment
  have hkept : ∀ k, Kept cfg (moment k) := fun k =>
    (Kept.powerOn random).run hpos fun e he => hevents e (List.mem_of_mem_take he)
  have hbacked : ∀ k op, Backed commits cfg (moment k) op → Truthful commits cfg (moment k) op :=
    fun k op => Backed.truthful hpos (hkept k)
  refine ⟨hbacked, fun k op hbase => ⟨Truthful.backed (hkept k) hbase, hbacked k op⟩,
    fun htruth => ?_, fun h k op hop => hbacked k op (h k op hop)⟩
  -- up to the first broken promise what is in RAM is committed, or nothing is
  have hbase : ∀ k, Committed cfg (moment k) ∨ Blank cfg (moment k) := by
    intro k
    induction k with
    | zero => exact based_boot hpos rfl rfl random
    | succ k ih =>
      cases hevent : events[k]? with
      | none =>
        rw [show moment (k + 1) = moment k from Runs.moment_succ_of_none hevent]
        exact ih
      | some e =>
        rw [show moment (k + 1) = step commits (moment k) e from Runs.moment_succ hevent]
        refine based_step hpos ih (hevents e (List.mem_of_getElem? hevent)) fun op hop => ?_
        exact htruth k op (hop ▸ hevent)
  exact fun k op hop => (htruth k op hop).backed (hkept k) (hbase k)

/-- A flash that commits twice. -/
def twice (n : Nat) : Bool := n < 2

/-- A learn whose sync commits, a rename to the same name and the removal of a name that is not
    there: every `ok` is kept, though no later sync would commit. -/
theorem ok_committed_iff_learned :
    let events : List Event :=
      [.op (.put { name := ascii "a", timings := [350, -1050] }), .op (.rename 1 (ascii "a")),
        .op (.remove (ascii "b"))]
    ∀ k op, events[k]? = some (.op op) → Truthful twice ⟨1, 4, 200, 7⟩
      (Runs.moment (step twice) (powerOn twice ⟨1, 4, 200, 7⟩ none) events k) op := by
  intro events
  have hevents : ∀ e ∈ events, e.Under (· = ⟨1, 4, 200, 7⟩) := by
    intro e he
    simp only [events, List.mem_cons, List.not_mem_nil, or_false] at he
    rcases he with rfl | rfl | rfl <;> trivial
  refine (ok_committed_iff (by decide) twice none hevents).2.2.mpr ?_
  -- the learn is synced, and so committed when the rename comes
  obtain ⟨payload, next, undone, hplan⟩ := putPlan_write_iff.mpr
    (show (powerOn twice ⟨1, 4, 200, 7⟩ none).store.Accepts
      { name := ascii "a", timings := [350, -1050] } by decide +kernel)
  have hplan' : (Op.put { name := ascii "a", timings := [350, -1050] }).plan
      (powerOn twice ⟨1, 4, 200, 7⟩ none).store = .write payload next undone := hplan
  have hlearned := synced_write_kept (by decide) (Kept.powerOn none) hplan'
    (show twice (powerOn twice ⟨1, 4, 200, 7⟩ none).flash.syncs = true by decide +kernel)
  intro k op hop
  rcases k with _ | _ | _ | k
  · obtain rfl := Event.op.inj (Option.some.inj hop)
    exact ⟨fun _ => Or.inl (by decide +kernel), fun hidle => hidle.elim⟩
  · obtain rfl := Event.op.inj (Option.some.inj hop)
    exact ⟨fun hacc => absurd hacc (by decide +kernel), fun _ => hlearned⟩
  · obtain rfl := Event.op.inj (Option.some.inj hop)
    exact ⟨fun hacc => absurd hacc (by decide +kernel), fun hidle => hidle.elim⟩
  · cases hop

/-- A fresh device of which only the first sync succeeds. -/
def unsynced : StagedDevice := powerOn (fun n => n = 0) ⟨1, 4, 200, 7⟩ none

/-- It acknowledges a learned command and forgets it with the next power cycle. -/
theorem put_ok_not_committed :
    let out := (Op.put { name := ascii "a", timings := [350, -1050] }).run (staged fun n => n = 0)
      unsynced.store unsynced.flash
    out.1 = .ok ∧
      ¬ LoadsAfterPowerCycle (fun n => n = 0) ⟨1, 4, 200, 7⟩ out.2.2 out.2.1.registry := by
  obtain ⟨payload, next, undone, hplan⟩ := putPlan_write_iff.mpr
    (show unsynced.store.Accepts { name := ascii "a", timings := [350, -1050] } by decide +kernel)
  have hplan' : (Op.put { name := ascii "a", timings := [350, -1050] }).plan unsynced.store
      = .write payload next undone := hplan
  exact unsynced_write_lost (Kept.powerOn none)
    (boot_fresh_restores (by decide) rfl (by decide) none) (fun random h => nomatch h) hplan'
    (by decide +kernel)

end StagedDevice

end RfCloner
